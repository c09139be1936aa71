import Mqtt.Basic
import Mqtt.Reason
import Mqtt.Property.Identifier
import Mqtt.Wire.Utf8

/-!
# Errors

Every way in which an operation can be refused, by cause. The wording is in `Error.message` and the
`message` of the four families of causes; no other module writes one.

* `Malformed`: octets that are no packet, or a packet that has no octets;
* `Violation`: a packet that may not be sent here;
* `Misuse`: a request that the state of the client does not allow;
* `Corrupt`: an exchange or a record of one that cannot have been written.

`Error.underflow` is a read past the end of the input. The decoders look before they read, so it
never leaves them.
-/

namespace Mqtt

/-! ## Families of causes -/

/-- Why octets are no packet, or a packet has no octets. -/
inductive Malformed
  | varIntTooLarge (value : Nat)
  | varIntTooLong
  | varIntInvalid
  | varIntTruncated
  | missingLength
  | lengthBeyondEnd (length remaining : Nat)
  | binaryTooLong (length : Nat)
  | notText (defect : Utf8.Defect)
  | missingHeader
  | truncatedHeader
  | lengthMismatch (announced actual : Nat)
  | propertiesCutShort (expected actual : Nat)
  | propertyCutShort (property : Property)
  | protocolName (name : String)
  | connectTruncated
  | connectReservedFlag
  | connAckTruncated
  | connAckFlags (flags : UInt8)
  | sessionPresentOnRefusal
  | publishQoS (flags : UInt8)
  | dupAtQoS0
  | publishZeroIdentifier
  | publishNeedsIdentifier
  | dupOutsidePublish
  | missingIdentifier (packet : PacketType)
  | zeroIdentifier (packet : PacketType)
  | missingReason (packet : PacketType)
  | unknownReason (packet : PacketType) (code : UInt8)
  | forbiddenReason (packet : PacketType) (reason : Reason)
  | releaseFlags (flags : UInt8)
  | requestFlags (packet : PacketType) (flags : UInt8)
  | noFilters (packet : PacketType)
  | missingOptions
  | reservedOptions
  | retainHandling
  | noReasons
  | other (text : String)
  deriving DecidableEq

/-- The wording of a cause. -/
def Malformed.message : Malformed → String
  | .varIntTooLarge v => s!"Variable byte integer {v} exceeds maximum 268435455"
  | .varIntTooLong => "Variable byte integer longer than 4 bytes"
  | .varIntInvalid => "Invalid variable byte integer"
  | .varIntTruncated => "Truncated variable byte integer"
  | .missingLength => "Missing length prefix"
  | .lengthBeyondEnd n r => s!"Length prefix {n} exceeds remaining {r} bytes"
  | .binaryTooLong n => s!"Binary data too long: {n} bytes"
  | .notText d => s!"Invalid UTF-8 string: {d.message}"
  | .missingHeader => "Missing fixed header"
  | .truncatedHeader => "Truncated fixed header"
  | .lengthMismatch n m => s!"Remaining length {n} does not match frame body of {m} bytes"
  | .propertiesCutShort n m => s!"Insufficient data for properties: expected {n}, got {m}"
  | .propertyCutShort p => s!"Insufficient data for property {p.name}"
  | .protocolName n => s!"Unexpected protocol name: {n}"
  | .connectTruncated => "CONNECT variable header truncated"
  | .connectReservedFlag => "CONNECT reserved flag must be 0"
  | .connAckTruncated => "CONNACK body truncated"
  | .connAckFlags b => s!"Invalid CONNACK acknowledge flags: 0x{Bytes.hex b}"
  | .sessionPresentOnRefusal => "CONNACK session present with non-zero reason code"
  | .publishQoS b => s!"Invalid PUBLISH QoS bits in flags 0x{Bytes.hex b}"
  | .dupAtQoS0 => "DUP flag set on QoS 0 PUBLISH"
  | .publishZeroIdentifier => "PUBLISH packet identifier must be non-zero for QoS > 0"
  | .publishNeedsIdentifier => "PUBLISH with QoS > 0 requires a non-zero packet identifier"
  | .dupOutsidePublish => "DUP flag applies to PUBLISH frames only"
  | .missingIdentifier t => s!"{t.label} missing packet identifier"
  | .zeroIdentifier t => s!"{t.label} packet identifier must be non-zero"
  | .missingReason t => s!"{t.label} missing reason code"
  | .unknownReason t b => s!"Invalid {t.label} reason code: 0x{Bytes.hex b}"
  | .forbiddenReason t r => s!"Invalid {t.label} reason code: {r.name}"
  | .releaseFlags b => s!"Invalid PUBREL flags: 0x{Bytes.hex b}"
  | .requestFlags t b => s!"Invalid {t.label} flags: expected 0x02, got 0x{Bytes.hex b}"
  | .noFilters t => s!"{t.label} packet must contain at least one topic filter"
  | .missingOptions => "Missing subscription options for topic filter"
  | .reservedOptions => "Reserved bits in subscription options must be 0"
  | .retainHandling => "Invalid retain handling value 3"
  | .noReasons => "SUBACK must contain at least one reason code"
  | .other text => text

/-- Which rule of the protocol a packet or a property breaks. -/
inductive Violation
  | authUnsupported
  | propertyShape (property : Property) (actual : Shape)
  | beforeConnAck (packet : PacketType)
  | clientOnly (packet : PacketType)
  | unexpectedConnAck
  | other (text : String)
  deriving DecidableEq

/-- The wording of a violation. -/
def Violation.message : Violation → String
  | .authUnsupported => "AUTH packets are not supported"
  | .propertyShape p s => s!"Property {p.name} expects type {p.shape.name}, got {s.name}"
  | .beforeConnAck t => s!"Received {t.name} before CONNACK"
  | .clientOnly t => s!"Server sent client-only packet {t.name}"
  | .unexpectedConnAck => "Received CONNACK in unexpected state"
  | .other text => text

/-- Why the state of the client does not allow a request. -/
inductive Misuse
  | identifierAtQoS0
  | noFilters
  | notAwaitingPubRec (id : UInt16) (awaited : PacketType)
  | restoreWhileConnected
  | other (text : String)
  deriving DecidableEq

/-- The wording of a misuse. -/
def Misuse.message : Misuse → String
  | .identifierAtQoS0 => "QoS 0 messages carry no packet identifier"
  | .noFilters => "SUBSCRIBE needs at least one topic filter"
  | .notAwaitingPubRec id t => s!"Packet {id} is waiting for {t.name}, not PUBREC"
  | .restoreWhileConnected => "Session entries can only be restored while disconnected"
  | .other text => text

/-- Why an exchange, or the record of one, cannot have been written. -/
inductive Corrupt
  | truncated (length : Nat)
  | format (number : UInt8)
  | direction (number : UInt8)
  | packetType (number : UInt8)
  | qos (number : UInt8)
  | version (number : UInt8)
  | otherIdentifier (recorded asked : UInt16)
  | unreachable (direction : Direction) (qos : QoS) (awaited : PacketType)
  | frameType (id : UInt16) (number : UInt8) (expected : PacketType)
  | retained (packet : PacketType)
  | other (text : String)
  deriving DecidableEq

/-- The wording of a corruption. -/
def Corrupt.message : Corrupt → String
  | .truncated n => s!"Serialized entry of {n} bytes is truncated"
  | .format b => s!"Unknown entry format version {b}"
  | .direction b => s!"Unknown direction {b}"
  | .packetType b => s!"Unknown packet type {b}"
  | .qos b => s!"Unknown QoS {b}"
  | .version b => s!"Unknown protocol version {b}"
  | .otherIdentifier m n => s!"Serialized entry is for packet {m}, not {n}"
  | .unreachable d q t => s!"{d.name} {q.name} entry cannot expect {t.name}"
  | .frameType id b t =>
    s!"Entry for packet {id} retains a frame of type {b}, expected {t.name}"
  | .retained t => s!"Unexpected {t.name} frame in session store"
  | .other text => text

/-- Why a connection could not be made or kept. -/
inductive ConnectionFault
  | closedBeforeConnAck
  | closedByServer (reason : Reason)
  | streamClosed
  | other (text : String)
  deriving DecidableEq

/-- The wording of a connection fault. -/
def ConnectionFault.message : ConnectionFault → String
  | .closedBeforeConnAck => "Connection closed before CONNACK"
  | .closedByServer r => s!"Server disconnected: {r.name}"
  | .streamClosed => "Stream transport cannot reconnect once closed"
  | .other text => text

/-! ## Errors -/

/-- The ways in which an operation can be refused. -/
inductive Error
  | io (text : String)
  | connection (fault : ConnectionFault)
  | refused (reason : Reason)
  | protocol (violation : Violation)
  | malformed (cause : Malformed)
  | packetTooLarge (size limit : Nat)
  | notConnected
  | alreadyConnected
  | keepAliveTimeout
  | clientClosed
  | closedByPeer
  | zeroIdentifier
  | identifierNotFound (id : UInt16)
  | identifierInUse (id : UInt16)
  | identifiersExhausted
  | unsolicited (id : UInt16) (packet : PacketType)
  | outOfOrder (id : UInt16) (expected received : PacketType)
  | invalidQoS (number : UInt8)
  | invalidPacketType (number : UInt8)
  | invalidReason (number : UInt8)
  | invalidProperty (number : UInt8)
  | duplicateProperty (number : UInt8)
  | unsupportedVersion
  | misuse (misuse : Misuse)
  | stringTooLong (length : Nat)
  | corrupt (cause : Corrupt)
  | configuration (text : String)
  | underflow
  deriving DecidableEq

namespace Error

/-- The wording of an error. -/
def message : Error → String
  | .io text => s!"IO error: {text}"
  | .connection f => s!"Connection error: {f.message}"
  | .refused r => s!"Connection refused: {r.name}"
  | .protocol v => s!"Protocol error: {v.message}"
  | .malformed c => s!"Malformed packet: {c.message}"
  | .packetTooLarge size limit => s!"Packet too large: size {size} exceeds maximum {limit}"
  | .notConnected => "Not connected"
  | .alreadyConnected => "Already connected"
  | .keepAliveTimeout => "Keep alive timeout"
  | .clientClosed => "Client closed connection"
  | .closedByPeer => "Connection closed by peer"
  | .zeroIdentifier => "Invalid packet identifier: 0"
  | .identifierNotFound id => s!"Packet identifier not found: {id}"
  | .identifierInUse id => s!"Packet identifier already in use: {id}"
  | .identifiersExhausted => "Packet ID exhausted"
  | .unsolicited id t => s!"Unsolicited {t.name} for packet identifier {id}"
  | .outOfOrder id expected received =>
    s!"Out of order {received.name} for packet identifier {id}: expected {expected.name}"
  | .invalidQoS b => s!"Invalid QoS: {b}"
  | .invalidPacketType b => s!"Invalid packet type: {b}"
  | .invalidReason b => s!"Invalid reason code: {b}"
  | .invalidProperty b => s!"Invalid property ID: {b}"
  | .duplicateProperty b => s!"Duplicate property ID: {b}"
  | .unsupportedVersion => "Unsupported protocol version"
  | .misuse m => s!"Invalid state: {m.message}"
  | .stringTooLong n => s!"String too long: {n} bytes exceeds maximum of 65535"
  | .corrupt c => s!"Session state corrupted: {c.message}"
  | .configuration text => s!"Configuration error: {text}"
  | .underflow => "Read past the end of the input"

/-- Whether one text stands somewhere in another. -/
def occursIn (needle : List Char) : List Char → Bool
  | [] => needle.isEmpty
  | c :: cs => needle.isPrefixOf (c :: cs) || occursIn needle cs

/-- The connection ended in one of the ways that connections end by. -/
def isNormalDisconnect : Error → Bool
  | .clientClosed | .closedByPeer => true
  | .io text =>
    occursIn "stream has been shut down".toList text.toList ||
      occursIn "Connection reset".toList text.toList
  | _ => false

/-- The error ends the connection and leaves the session as it is. -/
def isConnectionLevel : Error → Bool
  | .io _ | .connection _ | .closedByPeer | .malformed _ | .packetTooLarge .. | .outOfOrder ..
  | .protocol _ | .keepAliveTimeout => true
  | _ => false

end Error

end Mqtt
