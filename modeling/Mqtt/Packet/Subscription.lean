import Mqtt.Packet.Header
import Mqtt.Property.Block

/-!
# Subscribing and unsubscribing

SUBSCRIBE and UNSUBSCRIBE carry topic filters, SUBACK and UNSUBACK a reason for each of them. The
options of a filter are one octet; v3.1.1 has only the quality of service in it.
-/

namespace Mqtt

/-! ## SUBSCRIBE -/

/-- How messages are to be sent for a topic filter. -/
structure FilterOptions where
  qos : QoS
  noLocal : Bool := false
  retainAsPublished : Bool := false
  retainHandling : UInt8 := 0
  deriving DecidableEq

namespace FilterOptions

/-- The options as an octet. -/
def toByte (o : FilterOptions) : UInt8 :=
  o.qos.toByte + flagBit o.noLocal 0x04 + flagBit o.retainAsPublished 0x08 +
    o.retainHandling % 4 * 16

/-- The options in an octet. -/
def ofByte (b : UInt8) : Except Error FilterOptions :=
  let retainHandling := b / 16 % 4
  if b &&& 0xC0 ≠ 0 then .error (.malformed .reservedOptions)
  else if retainHandling = 3 then .error (.malformed .retainHandling)
  else
    match QoS.ofByte? (b % 4) with
    | none => .error (.invalidQoS (b % 4))
    | some qos => .ok ⟨qos, b &&& 0x04 ≠ 0, b &&& 0x08 ≠ 0, retainHandling⟩

/-- The options as a version writes them. -/
def toByteFor : Version → FilterOptions → UInt8
  | .v311, o => o.qos.toByte
  | .v5, o => o.toByte

/-- The options as a version reads them. -/
def ofByteFor : Version → UInt8 → Except Error FilterOptions
  | .v311, b =>
    match QoS.ofByte? b with
    | none => .error (.invalidQoS b)
    | some qos => .ok { qos }
  | .v5, b => ofByte b

end FilterOptions

/-- A topic filter with its options. -/
structure TopicFilter where
  filter : String
  options : FilterOptions
  deriving DecidableEq

/-- A SUBSCRIBE packet. -/
structure Subscribe where
  id : UInt16
  filters : List TopicFilter
  properties : Properties
  version : Version
  deriving DecidableEq

/-- Refuse a request whose flags are not the ones that the protocol reserves. -/
def requireRequestFlags (packet : PacketType) (flags : UInt8) : Decoder Unit :=
  .require (flags = 0x02) (.malformed (.requestFlags packet flags))

namespace Subscribe

/-- Write the body of a SUBSCRIBE. -/
def encodeBody (p : Subscribe) : Output :=
  if p.filters.isEmpty then .fail (.malformed (.noFilters .subscribe))
  else
    .put (Bytes.ofWord p.id) ++ p.properties.encodeFor p.version ++
      .concat (p.filters.map fun f =>
        Field.encodeText f.filter ++ .put [f.options.toByteFor p.version])

/-- Read a topic filter and its options. -/
def decodeFilter (version : Version) : Decoder TopicFilter := do
  let filter ← Field.text
  .require (← .has 1) (.malformed .missingOptions)
  match FilterOptions.ofByteFor version (← .u8) with
  | .error e => .refuse e
  | .ok options => return ⟨filter, options⟩

/-- Read the body of a SUBSCRIBE. -/
def decodeBody (flags : UInt8) (version : Version) : Decoder Subscribe := do
  requireRequestFlags .subscribe flags
  .require (← .has 2) (.malformed (.missingIdentifier .subscribe))
  let id ← .u16
  .require (id ≠ 0) (.malformed (.zeroIdentifier .subscribe))
  let properties ← Properties.decodeFor version
  .require (← .has 1) (.malformed (.noFilters .subscribe))
  let filters ← .items (decodeFilter version)
  return ⟨id, filters, properties, version⟩

end Subscribe

/-! ## UNSUBSCRIBE -/

/-- An UNSUBSCRIBE packet. -/
structure Unsubscribe where
  id : UInt16
  filters : List String
  properties : Properties
  version : Version
  deriving DecidableEq

namespace Unsubscribe

/-- Write the body of an UNSUBSCRIBE. -/
def encodeBody (p : Unsubscribe) : Output :=
  if p.filters.isEmpty then .fail (.malformed (.noFilters .unsubscribe))
  else
    .put (Bytes.ofWord p.id) ++ p.properties.encodeFor p.version ++
      .concat (p.filters.map Field.encodeText)

/-- Read the body of an UNSUBSCRIBE. -/
def decodeBody (flags : UInt8) (version : Version) : Decoder Unsubscribe := do
  requireRequestFlags .unsubscribe flags
  .require (← .has 2) (.malformed (.missingIdentifier .unsubscribe))
  let id ← .u16
  let properties ← Properties.decodeFor version
  let filters ← .items Field.text
  .require (!filters.isEmpty) (.malformed (.noFilters .unsubscribe))
  return ⟨id, filters, properties, version⟩

end Unsubscribe

/-! ## SUBACK and UNSUBACK -/

/-- The answer to a SUBSCRIBE or UNSUBSCRIBE: a reason for each filter. -/
structure FilterAck where
  id : UInt16
  reasons : List Reason
  properties : Properties
  version : Version
  deriving DecidableEq

namespace FilterAck

/-- Write the body of a SUBACK. -/
def encodeSubAck (p : FilterAck) : Output :=
  .put (Bytes.ofWord p.id) ++ p.properties.encodeFor p.version ++
    .put (p.reasons.map Reason.toByte)

/-- Write the body of an UNSUBACK. In v3.1.1 it is the identifier alone. -/
def encodeUnsubAck (p : FilterAck) : Output :=
  .put (Bytes.ofWord p.id) ++
  match p.version with
  | .v311 => .empty
  | .v5 => p.properties.encode ++ .put (p.reasons.map Reason.toByte)

/-- The codes of a v3.1.1 SUBACK: a granted level, or failure. -/
def isGrant (code : UInt8) : Bool := code ≤ 0x02 || code = 0x80

/-- Read a reason. -/
def decodeReason (version : Version) : Decoder Reason := do
  let code ← .u8
  .require (version = .v5 || isGrant code) (.invalidReason code)
  match Reason.ofByte? code with
  | none => .refuse (.invalidReason code)
  | some r => return r

/-- Read the body of a SUBACK. -/
def decodeSubAck (version : Version) : Decoder FilterAck := do
  .require (← .has 2) (.malformed (.missingIdentifier .subAck))
  let id ← .u16
  let properties ← Properties.decodeFor version
  let reasons ← .items (decodeReason version)
  .require (!reasons.isEmpty) (.malformed .noReasons)
  return ⟨id, reasons, properties, version⟩

/-- Read the body of an UNSUBACK. In v3.1.1 what follows the identifier is not looked at. -/
def decodeUnsubAck (version : Version) : Decoder FilterAck := do
  .require (← .has 2) (.malformed (.missingIdentifier .unsubAck))
  let id ← .u16
  match version with
  | .v311 => return ⟨id, [], .empty, version⟩
  | .v5 =>
    let properties ← Properties.decode
    let reasons ← .items (decodeReason .v5)
    return ⟨id, reasons, properties, version⟩

end FilterAck

end Mqtt
