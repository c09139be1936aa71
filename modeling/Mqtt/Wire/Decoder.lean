import Mqtt.Error
import Mqtt.Wire.Segments

/-!
# Reading

A decoder takes octets from the front of a segmented buffer and yields a value, or refuses. The
primitives `u8`, `u16`, `u32` and `take` fail with `Error.underflow` when the buffer is too short;
a decoder asks `has` before it reads, so that short input is refused for a reason of its own.
-/

namespace Mqtt

/-- A reader of values from a segmented buffer. -/
abbrev Decoder := StateT Segments (Except Error)

namespace Decoder

/-- Refuse the input. -/
def refuse {α : Type} (e : Error) : Decoder α := throw e

/-- Refuse the input unless a condition holds. -/
def require (c : Bool) (e : Error) : Decoder Unit := if c then pure () else refuse e

/-- The number of octets left. -/
def remaining : Decoder Nat := return (← get).remaining

/-- Whether `n` octets are left. -/
def has (n : Nat) : Decoder Bool := return (← get).hasAtLeast n

/-- Whether nothing is left. -/
def atEnd : Decoder Bool := return !(← has 1)

/-- Read an octet. -/
def u8 : Decoder UInt8 := fun s =>
  match s.next? with
  | some r => .ok r
  | none => .error .underflow

/-- Read a 16-bit number. -/
def u16 : Decoder UInt16 := do
  let hi ← u8
  let lo ← u8
  return Bytes.word hi lo

/-- Read a 32-bit number. -/
def u32 : Decoder UInt32 := do
  let hi ← u16
  let lo ← u16
  return Bytes.long hi lo

/-- Read `n` octets. -/
def take (n : Nat) : Decoder Bytes := fun s =>
  match s.take? n with
  | some r => .ok r
  | none => .error .underflow

/-- Read everything that is left. -/
def rest : Decoder Bytes := do take (← remaining)

/-- Read a value if a condition holds. -/
def optionally {α : Type} (c : Bool) (d : Decoder α) : Decoder (Option α) :=
  if c then some <$> d else pure none

/-- Read items until nothing is left, at most `fuel` of them. -/
def itemsUpTo {α : Type} (item : Decoder α) : Nat → Decoder (List α)
  | 0 => return []
  | fuel + 1 => do
    if ← atEnd then return []
    let a ← item
    return a :: (← itemsUpTo item fuel)

/-- Read items until nothing is left. Each item takes an octet or more, so there are no more items
than octets. -/
def items {α : Type} (item : Decoder α) : Decoder (List α) := do
  itemsUpTo item (← remaining)

/-- Read a value from given octets instead of the buffer. -/
def within {α : Type} (b : Bytes) (d : Decoder α) : Decoder α :=
  match d.run (.ofBytes b) with
  | .ok (a, _) => pure a
  | .error e => refuse e

/-- The value that a decoder reads at the front of contiguous octets, whatever follows. -/
def runOn {α : Type} (d : Decoder α) (b : Bytes) : Except Error α :=
  (d.run (.ofBytes b)).map (·.1)

end Decoder

end Mqtt
