import Mqtt.Property.List
import Mqtt.Wire.Field

/-!
# Property blocks

On the wire the properties stand behind their total length. `Properties.encode` writes the block,
`Properties.encodedSize` counts its octets without writing it, and `Properties.decode` reads a block
and gives the properties one by one, so that a block with a property of the wrong kind or given
twice is refused like `Properties.add` refuses it.
-/

namespace Mqtt

/-! ## Writing -/

/-- Write a value. -/
def Value.encode : Value → Output
  | .byte v => .put [v]
  | .word v => .put (Bytes.ofWord v)
  | .long v => .put (Bytes.ofLong v)
  | .varInt v => VarInt.encode v
  | .binary v => Field.encodeBinary v
  | .text v => Field.encodeText v
  | .pair k v => Field.encodeText k ++ Field.encodeText v

/-- The number of octets that a value takes. -/
def Value.encodedSize : Value → Nat
  | .byte _ => 1
  | .word _ => 2
  | .long _ => 4
  | .varInt v => VarInt.size v
  | .binary v => Field.binarySize v
  | .text v => Field.textSize v
  | .pair k v => Field.textSize k + Field.textSize v

namespace Properties

/-- Write a property: its identifier, then its value. -/
def encodeItem (item : Property × Value) : Output :=
  VarInt.encode item.1.toByte.toNat ++ item.2.encode

/-- The number of octets that a list of properties takes. -/
def itemsSize : List (Property × Value) → Nat
  | [] => 0
  | item :: items => VarInt.size item.1.toByte.toNat + item.2.encodedSize + itemsSize items

/-- The number of octets that the properties take, without their length. -/
def bodySize (ps : Properties) : Nat := itemsSize ps.items

/-- Write the block: the length of the properties, then the properties. -/
def encode (ps : Properties) : Output :=
  VarInt.encodeLength ps.bodySize 4294967295 ++ .concat (ps.items.map encodeItem)

/-- Write the block in the version that has properties, and nothing in the other. -/
def encodeFor (v : Version) (ps : Properties) : Output :=
  match v with
  | .v311 => .empty
  | .v5 => ps.encode

/-- The number of octets that the block takes. -/
def encodedSize (ps : Properties) : Nat := VarInt.size ps.bodySize + ps.bodySize

/-! ## Reading -/

/-- Refuse a property whose value of fixed width is cut short. -/
def requireWidth (p : Property) (width : Nat) : Decoder Unit := do
  .require (← .has width) (.malformed (.propertyCutShort p))

/-- Read the value of a property. -/
def decodeValue (p : Property) : Decoder Value := do
  match p.shape with
  | .byte =>
    requireWidth p 1
    return .byte (← .u8)
  | .word =>
    requireWidth p 2
    return .word (← .u16)
  | .long =>
    requireWidth p 4
    return .long (← .u32)
  | .varInt => return .varInt (← VarInt.decode)
  | .binary => return .binary (← Field.binary)
  | .text => return .text (← Field.text)
  | .pair =>
    let k ← Field.text
    return .pair k (← Field.text)

/-- Read the identifier of a property. -/
def decodeIdentifier : Decoder Property := do
  let n ← VarInt.decode
  .require (n < 256) (.invalidProperty 255)
  match Property.ofByte? (UInt8.ofNat n) with
  | some p => return p
  | none => .refuse (.invalidProperty (UInt8.ofNat n))

/-- Read a property and give it. -/
def decodeItem (ps : Properties) : Decoder Properties := do
  let p ← decodeIdentifier
  let v ← decodeValue p
  match ps.add p v with
  | .ok ps => return ps
  | .error e => .refuse e

/-- Read properties until nothing is left, at most `fuel` of them, and give them to `ps`. -/
def decodeItems : Nat → Properties → Decoder Properties
  | 0, ps => return ps
  | fuel + 1, ps => do
    if ← .atEnd then return ps
    decodeItems fuel (← decodeItem ps)

/-- Read a block. Every property takes an octet or more. -/
def decode : Decoder Properties := do
  let n ← VarInt.decode
  unless ← Decoder.has n do
    Decoder.refuse (.malformed (.propertiesCutShort n (← Decoder.remaining)))
  let block ← .take n
  .within block (decodeItems n empty)

/-- Read a block in the version that has properties, and nothing in the other. -/
def decodeFor : Version → Decoder Properties
  | .v311 => return empty
  | .v5 => decode

/-- Read a block that may be left out at the end of a packet. -/
def decodeIfAny : Decoder Properties := do
  if ← .atEnd then return empty
  decode

end Properties

end Mqtt
