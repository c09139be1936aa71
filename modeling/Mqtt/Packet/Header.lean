import Mqtt.Wire.VarInt

/-!
# Fixed headers

Every packet starts with its type, four flag bits and the length of its body. `Header.decode` reads
a header from a segmented buffer; `Header.peek?` looks for one at the front of contiguous octets
and says when more octets are needed.
-/

namespace Mqtt

/-- A flag bit, if it is set. -/
def flagBit (set : Bool) (bit : UInt8) : UInt8 := if set then bit else 0

/-- The fixed header of a packet. -/
structure Header where
  packet : PacketType
  flags : UInt8
  length : Nat
  deriving DecidableEq

namespace Header

/-- The first octet: the type above the flags. -/
def firstOctet (h : Header) : UInt8 := h.packet.toByte * 16 + h.flags % 16

/-- Write a header. -/
def encode (h : Header) : Output := .put [h.firstOctet] ++ VarInt.encode h.length

/-- The number of octets of a header. -/
def encodedSize (h : Header) : Nat := 1 + VarInt.size h.length

/-- The type in a first octet. -/
def packetType (first : UInt8) : Except Error PacketType :=
  match PacketType.ofByte? (first / 16) with
  | some t => .ok t
  | none => .error (.invalidPacketType (first / 16))

/-- Read a header. -/
def decode : Decoder Header := do
  .require (← .has 1) (.malformed .missingHeader)
  let first ← .u8
  match packetType first with
  | .error e => .refuse e
  | .ok t => return ⟨t, first % 16, ← VarInt.decode⟩

/-- The header at the front of octets and how many it takes, or nothing while it is incomplete. -/
def peek? : Bytes → Except Error (Option (Header × Nat))
  | [] => .ok none
  | first :: rest => do
    let t ← packetType first
    return (← VarInt.peek? rest).map fun r => (⟨t, first % 16, r.1⟩, 1 + r.2)

end Header

end Mqtt
