import Mqtt.Packet.Header
import Mqtt.Property.Block

/-!
# Opening and closing packets

CONNECT, CONNACK and DISCONNECT. A v3.1.1 packet carries no properties; its CONNACK has return
codes of its own, and its DISCONNECT has no body at all.
-/

namespace Mqtt

/-! ## CONNECT -/

/-- The message that the server publishes when the client goes away. -/
structure Will where
  topic : String
  payload : Bytes
  qos : QoS
  retain : Bool
  delay : Option UInt32
  deriving DecidableEq

/-- A CONNECT packet. -/
structure Connect where
  version : Version
  clientId : String
  keepAlive : UInt16
  cleanStart : Bool
  username : Option String
  password : Option Bytes
  will : Option Will
  properties : Properties
  deriving DecidableEq

namespace Will

/-- The properties of a will: its delay. -/
def properties (w : Will) : Properties :=
  match w.delay with
  | none => .empty
  | some d => ⟨[(.willDelayInterval, .long d)]⟩

/-- Write a will. -/
def encode (v : Version) (w : Will) : Output :=
  w.properties.encodeFor v ++ Field.encodeText w.topic ++ Field.encodeBinary w.payload

/-- Read a will whose quality of service has number `qos`. -/
def decode (v : Version) (qos : UInt8) (retain : Bool) : Decoder Will := do
  let properties ← Properties.decodeFor v
  let topic ← Field.text
  let payload ← Field.binary
  match QoS.ofByte? qos with
  | none => .refuse (.invalidQoS qos)
  | some q => return ⟨topic, payload, q, retain, properties.long? .willDelayInterval⟩

end Will

namespace Connect

/-- The name of the protocol, the first field of a CONNECT. -/
def protocolName : String := "MQTT"

/-- The flags of the variable header. -/
def flags (p : Connect) : UInt8 :=
  flagBit p.cleanStart 0x02 +
  (match p.will with
    | none => 0
    | some w => 0x04 + w.qos.toByte * 8 + flagBit w.retain 0x20) +
  flagBit p.username.isSome 0x80 + flagBit p.password.isSome 0x40

/-- Write the body of a CONNECT. -/
def encodeBody (p : Connect) : Output :=
  .concat [
    Field.encodeText protocolName,
    .put ([p.version.toByte, p.flags] ++ Bytes.ofWord p.keepAlive),
    p.properties.encodeFor p.version,
    Field.encodeText p.clientId,
    (p.will.map (Will.encode p.version)).getD .empty,
    (p.username.map Field.encodeText).getD .empty,
    (p.password.map Field.encodeBinary).getD .empty]

/-- Read the body of a CONNECT. The version is the packet's own. -/
def decodeBody : Decoder Connect := do
  let name ← Field.text
  .require (name = protocolName) (.malformed (.protocolName name))
  .require (← .has 4) (.malformed .connectTruncated)
  let level ← .u8
  match Version.ofByte? level with
  | none => .refuse .unsupportedVersion
  | some version =>
    let flags ← .u8
    .require (flags &&& 0x01 = 0) (.malformed .connectReservedFlag)
    let keepAlive ← .u16
    let properties ← Properties.decodeFor version
    let clientId ← Field.text
    let will ← .optionally (flags &&& 0x04 ≠ 0)
      (Will.decode version (flags / 8 % 4) (flags &&& 0x20 ≠ 0))
    let username ← .optionally (flags &&& 0x80 ≠ 0) Field.text
    let password ← .optionally (flags &&& 0x40 ≠ 0) Field.binary
    return {
      version, clientId, keepAlive, username, password, will, properties
      cleanStart := flags &&& 0x02 ≠ 0 }

end Connect

/-! ## CONNACK -/

/-- A CONNACK packet. The return codes of v3.1.1 are held as the reasons they stand for. -/
structure ConnAck where
  sessionPresent : Bool
  reason : Reason
  properties : Properties
  version : Version
  deriving DecidableEq

namespace ConnAck

/-- Write the body of a CONNACK. -/
def encodeBody (p : ConnAck) : Output :=
  .put [flagBit p.sessionPresent 0x01] ++
  match p.version with
  | .v311 => .put [p.reason.toConnectReturn]
  | .v5 => .put [p.reason.toByte] ++ p.properties.encode

/-- Read the reason and the properties of a CONNACK. The properties may be left out. -/
def decodeOutcome (version : Version) : Decoder (Reason × Properties) := do
  let code ← .u8
  match version with
  | .v311 =>
    match Reason.ofConnectReturn? code with
    | none => .refuse (.invalidReason code)
    | some r => return (r, .empty)
  | .v5 =>
    match Reason.ofByte? code with
    | none => .refuse (.invalidReason code)
    | some r => return (r, ← Properties.decodeIfAny)

/-- Read the body of a CONNACK. -/
def decodeBody (version : Version) : Decoder ConnAck := do
  .require (← .has 2) (.malformed .connAckTruncated)
  let flags ← .u8
  .require (flags &&& 0xFE = 0) (.malformed (.connAckFlags flags))
  let sessionPresent := flags &&& 0x01 ≠ 0
  let (reason, properties) ← decodeOutcome version
  .require (!(sessionPresent && reason ≠ .success)) (.malformed .sessionPresentOnRefusal)
  return ⟨sessionPresent, reason, properties, version⟩

end ConnAck

/-! ## DISCONNECT -/

/-- A DISCONNECT packet. -/
structure Disconnect where
  reason : Reason
  properties : Properties
  version : Version
  deriving DecidableEq

namespace Disconnect

/-- A normal disconnection. -/
def normal (version : Version) : Disconnect := ⟨.success, .empty, version⟩

/-- Write the body of a DISCONNECT in its shortest form. -/
def encodeBody (p : Disconnect) : Output :=
  match p.version with
  | .v311 => .empty
  | .v5 =>
    if p.reason = .success ∧ p.properties.isEmpty then .empty
    else .put [p.reason.toByte] ++
      if p.properties.isEmpty then .empty else p.properties.encode

/-- Read the body of a DISCONNECT. Without a body the disconnection is normal. -/
def decodeBody (version : Version) : Decoder Disconnect := do
  match version with
  | .v311 => return normal version
  | .v5 =>
    if ← .atEnd then return normal version
    let code ← .u8
    match Reason.ofByte? code with
    | none => .refuse (.invalidReason code)
    | some reason =>
      return ⟨reason, ← Properties.decodeIfAny, version⟩

end Disconnect

end Mqtt
