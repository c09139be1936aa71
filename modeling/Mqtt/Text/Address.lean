import Mqtt.Text.Parser
import Mqtt.Wire.Bytes

/-!
# Socket addresses

An address of a host and a port, as text: `192.0.2.1:1883` or `[2001:db8::1]:1883`. Reading accepts
every spelling of a v6 address (groups of up to four digits, one run of zeros as `::`, the last two
groups as a v4 address, a numeric zone). Writing uses one of them: the first longest run of two or
more zero groups becomes `::`, and a v4-mapped address ends in the v4 form.
-/

namespace Mqtt

/-- A v4 address. -/
structure HostV4 where
  a : UInt8
  b : UInt8
  c : UInt8
  d : UInt8
  deriving DecidableEq

/-- A v6 address: its groups. -/
structure HostV6 where
  groups : List UInt16
  length_groups : groups.length = 8
  deriving DecidableEq

/-- The address of a host and a port. -/
inductive SocketAddress
  | v4 (host : HostV4) (port : UInt16)
  | v6 (host : HostV6) (zone : UInt32) (port : UInt16)
  deriving DecidableEq

namespace HostV4

/-- The last two groups of a v6 address that ends in a v4 address. -/
def groups (h : HostV4) : List UInt16 := [Bytes.word h.a h.b, Bytes.word h.c h.d]

/-- The text of a v4 address. -/
def render (h : HostV4) : String := s!"{h.a}.{h.b}.{h.c}.{h.d}"

end HostV4

namespace HostV6

/-- A run of zero groups. -/
structure Run where
  start : Nat
  length : Nat

/-- The first longest run of zeros in groups of which the first is at `i`, with the run that ends
there and the longest before. -/
def longestFrom (i : Nat) (current longest : Run) : List UInt16 → Run
  | [] => longest
  | g :: gs =>
    if g = 0 then
      let current : Run := ⟨if current.length = 0 then i else current.start, current.length + 1⟩
      longestFrom (i + 1) current (if longest.length < current.length then current else longest) gs
    else longestFrom (i + 1) ⟨0, 0⟩ longest gs

/-- The first longest run of zeros. -/
def longestRun (gs : List UInt16) : Run := longestFrom 0 ⟨0, 0⟩ ⟨0, 0⟩ gs

/-- Groups with colons between them. -/
def renderGroups (gs : List UInt16) : String :=
  ":".intercalate (gs.map fun g => Digits.ofNat 16 g.toNat)

/-- The text of a v6 address. -/
def render (h : HostV6) : String :=
  match h.groups with
  | [0, 0, 0, 0, 0, 0xFFFF, m, n] =>
    "::ffff:" ++ HostV4.render ⟨(m / 256).toUInt8, m.toUInt8, (n / 256).toUInt8, n.toUInt8⟩
  | gs =>
    let run := longestRun gs
    if 1 < run.length then
      renderGroups (gs.take run.start) ++ "::" ++ renderGroups (gs.drop (run.start + run.length))
    else renderGroups gs

end HostV6

namespace SocketAddress

open Mqtt.Parser

/-! ## Reading -/

/-- Read a number below a limit: of at most `width` digits if there is a width, and without idle
zeros if `plain`. -/
def number (base limit : Nat) (width : Option Nat) (plain : Bool) : Parser Nat := do
  let ds ← takeWhile (Digits.isDigit base)
  if ds.isEmpty then failure
  if width.any (· < ds.length) then failure
  if plain && ds.head? = some '0' && 1 < ds.length then failure
  let n := Digits.toNat base ds
  if limit ≤ n then failure
  return n

/-- Read a part of a v4 address. -/
def octet : Parser UInt8 := UInt8.ofNat <$> number 10 256 (some 3) true

/-- Read a v4 address. -/
def hostV4 : Parser HostV4 := do
  let a ← octet
  expect '.'
  let b ← octet
  expect '.'
  let c ← octet
  expect '.'
  return ⟨a, b, c, ← octet⟩

/-- Read a group of a v6 address. -/
def group : Parser UInt16 := UInt16.ofNat <$> number 16 65536 (some 4) false

/-- Read up to a number of groups, and say whether they end in a v4 address. -/
def groupsUpTo (first : Bool) : Nat → Parser (List UInt16 × Bool)
  | 0 => return ([], false)
  | n + 1 => do
    let separator : Parser Unit := if first then pure () else expect ':'
    match ← optional (separator *> if 0 < n then hostV4 else failure) with
    | some h => return (h.groups, true)
    | none =>
      match ← optional (separator *> group) with
      | none => return ([], false)
      | some g =>
        let (gs, embedded) ← groupsUpTo false n
        return (g :: gs, embedded)

/-- Read the groups of a v6 address. -/
def groups : Parser (List UInt16) := do
  let (before, embedded) ← groupsUpTo true 8
  if before.length = 8 then return before
  if embedded then failure
  word "::"
  let (after, _) ← groupsUpTo true (7 - before.length)
  return before ++ List.replicate (8 - before.length - after.length) 0 ++ after

/-- Read a v6 address. -/
def hostV6 : Parser HostV6 := do
  let gs ← groups
  if h : gs.length = 8 then return ⟨gs, h⟩ else failure

/-- Read a port. -/
def port : Parser UInt16 := do
  expect ':'
  UInt16.ofNat <$> number 10 65536 none false

/-- Read the zone of a v6 address. -/
def zone : Parser UInt32 := do
  expect '%'
  UInt32.ofNat <$> number 10 4294967296 none false

/-- Read an address with a v6 host. -/
def addressV6 : Parser SocketAddress := do
  expect '['
  let host ← hostV6
  let zone ← optional zone
  expect ']'
  return .v6 host (zone.getD 0) (← port)

/-- Read an address with a v4 host. -/
def addressV4 : Parser SocketAddress := do
  let host ← hostV4
  return .v4 host (← port)

/-- The address that a text spells. -/
def read? (s : String) : Option SocketAddress := all? (addressV4 <|> addressV6) s

/-! ## Writing -/

/-- The text of an address. -/
def render : SocketAddress → String
  | .v4 host port => s!"{host.render}:{port}"
  | .v6 host zone port =>
    let zone := if zone = 0 then "" else s!"%{zone}"
    s!"[{host.render}{zone}]:{port}"

end SocketAddress

end Mqtt
