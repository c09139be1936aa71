import Mqtt.Wire.Decoder
import Mqtt.Wire.Output

/-!
# Variable byte integers

Lengths travel in groups of seven bits, low group first; every octet but the last has its high bit
set. Four octets are the most, so the greatest number is 268435455.

* `encode` writes a number in as few octets as it needs, `size` says how many;
* `scan` looks for a number at the front of contiguous octets, and `peek?` also tells input that
  is too long from input that is not complete yet;
* `decode` reads a number from a segmented buffer: it looks at the first piece, and goes through
  the pieces octet by octet when the number does not end there.
-/

namespace Mqtt

namespace VarInt

/-- The greatest number that four octets carry. -/
def max : Nat := 268435455

/-- The number of octets of a number that can be written. -/
def size (v : Nat) : Nat :=
  if v < 128 then 1 else if v < 16384 then 2 else if v < 2097152 then 3 else 4

/-- The octets of a number, at most `n + 1` of them. -/
def digits : Nat → Nat → Bytes
  | 0, v => [UInt8.ofNat v]
  | n + 1, v =>
    if v < 128 then [UInt8.ofNat v]
    else UInt8.ofNat (v % 128 + 128) :: digits n (v / 128)

/-- Write a number; one that is too large writes nothing. -/
def encode (v : Nat) : Output :=
  if v ≤ max then .put (digits 3 v) else .fail (.malformed (.varIntTooLarge v))

/-- Write a length. A length beyond 32 bits is refused as `limit` exceeded. -/
def encodeLength (n limit : Nat) : Output :=
  if n < 4294967296 then encode n else .fail (.packetTooLarge n limit)

/-- The number at the front of octets and how many it takes, if it ends within `n` octets. -/
def scan : Nat → Bytes → Option (Nat × Nat)
  | 0, _ => none
  | _ + 1, [] => none
  | n + 1, b :: rest =>
    if b < 128 then some (b.toNat, 1)
    else (scan n rest).map fun r => (b.toNat % 128 + 128 * r.1, r.2 + 1)

/-- The number at the front of octets and how many it takes, or nothing while it is incomplete. -/
def peek? (b : Bytes) : Except Error (Option (Nat × Nat)) :=
  match scan 4 b with
  | some r => .ok (some r)
  | none => if 4 ≤ b.length then .error (.malformed .varIntTooLong) else .ok none

/-- Read a number of at most `n` octets, one octet after the other. -/
def decodeByOctets : Nat → Decoder Nat
  | 0 => .refuse (.malformed .varIntInvalid)
  | n + 1 => do
    .require (← .has 1) (.malformed .varIntInvalid)
    let b ← .u8
    if b < 128 then return b.toNat
    return b.toNat % 128 + 128 * (← decodeByOctets n)

/-- Read a number. -/
def decode : Decoder Nat := do
  let front := (← get).front
  match peek? front with
  | .error e => .refuse e
  | .ok (some (v, n)) =>
    let _ ← Decoder.take n
    return v
  | .ok none =>
    if ← .has (front.length + 1) then decodeByOctets 4
    else .refuse (.malformed .varIntTruncated)

end VarInt

end Mqtt
