import Mqtt.Packet.Header
import Mqtt.Property.Block

/-!
# PUBLISH

An application message. Above QoS 0 it carries a packet identifier, which is never zero; a repeated
transmission has the DUP bit set, which `Publish.markDup` does to the octets of a packet.
-/

namespace Mqtt

/-- A PUBLISH packet. -/
structure Publish where
  topic : String
  id : Option UInt16
  payload : Bytes
  qos : QoS
  retain : Bool
  dup : Bool
  properties : Properties
  version : Version
  deriving DecidableEq

namespace Publish

/-- A message without an identifier and without properties. -/
def ofMessage (topic : String) (payload : Bytes) (qos : QoS) (retain : Bool) : Publish :=
  ⟨topic, none, payload, qos, retain, false, .empty, .v5⟩

/-- The flags of the fixed header. -/
def flags (p : Publish) : UInt8 :=
  p.qos.toByte * 2 + flagBit p.dup 0x08 + flagBit p.retain 0x01

/-- Write the identifier of a message that has to carry one. -/
def encodeId (p : Publish) : Output :=
  match p.qos, p.id with
  | .atMostOnce, _ => .empty
  | _, some id =>
    if id = 0 then .fail (.malformed .publishNeedsIdentifier) else .put (Bytes.ofWord id)
  | _, none => .fail (.malformed .publishNeedsIdentifier)

/-- Write the body of a PUBLISH. -/
def encodeBody (p : Publish) : Output :=
  .concat [
    Field.encodeText p.topic,
    p.encodeId,
    p.properties.encodeFor p.version,
    .put p.payload]

/-- Read the identifier of a message that has to carry one. -/
def decodeId (qos : QoS) : Decoder (Option UInt16) := do
  if qos = .atMostOnce then return none
  .require (← .has 2) (.malformed (.missingIdentifier .publish))
  let id ← .u16
  .require (id ≠ 0) (.malformed .publishZeroIdentifier)
  return some id

/-- Read the body of a PUBLISH with given flags. -/
def decodeBody (flags : UInt8) (version : Version) : Decoder Publish := do
  match QoS.ofByte? (flags / 2 % 4) with
  | none => .refuse (.malformed (.publishQoS flags))
  | some qos =>
    let dup := flags &&& 0x08 ≠ 0
    let retain := flags &&& 0x01 ≠ 0
    .require (!(qos = .atMostOnce && dup)) (.malformed .dupAtQoS0)
    let topic ← Field.text
    let id ← decodeId qos
    let properties ← Properties.decodeFor version
    let payload ← .rest
    return ⟨topic, id, payload, qos, retain, dup, properties, version⟩

/-- Set the DUP bit in the octets of a PUBLISH. -/
def markDup : Bytes → Except Error Bytes
  | [] => .error (.malformed .dupOutsidePublish)
  | first :: rest =>
    if first / 16 = PacketType.publish.toByte then .ok ((first ||| 0x08) :: rest)
    else .error (.malformed .dupOutsidePublish)

end Publish

end Mqtt
