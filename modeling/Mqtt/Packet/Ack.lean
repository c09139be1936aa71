import Mqtt.Packet.Header
import Mqtt.Property.Block

/-!
# Publish acknowledgments

PUBACK, PUBREC, PUBREL and PUBCOMP have one form: an identifier, a reason and properties. They
differ in their type, their flags and the reasons that they may give. `Ack.encodeBody` writes the
shortest form: the identifier alone for success without properties, which is all that v3.1.1 knows.
The form of a body that is read follows from the length in the header.
-/

namespace Mqtt

/-- The four acknowledgments of a publish. -/
inductive AckKind
  | pubAck
  | pubRec
  | pubRel
  | pubComp
  deriving DecidableEq, Repr, Inhabited

namespace AckKind

/-- The packet type of an acknowledgment. -/
def packetType : AckKind → PacketType
  | .pubAck => .pubAck
  | .pubRec => .pubRec
  | .pubRel => .pubRel
  | .pubComp => .pubComp

/-- The flags of the fixed header. -/
def flags : AckKind → UInt8
  | .pubRel => 0x02
  | _ => 0x00

/-- The reasons that PUBACK and PUBREC may give. -/
def publishReason : Reason → Bool
  | .success | .noMatchingSubscribers | .unspecifiedError | .implementationSpecificError
  | .notAuthorized | .topicNameInvalid | .packetIdentifierInUse | .quotaExceeded
  | .payloadFormatInvalid => true
  | _ => false

/-- The reasons that PUBREL and PUBCOMP may give. -/
def releaseReason : Reason → Bool
  | .success | .packetIdentifierNotFound => true
  | _ => false

/-- The reasons that an acknowledgment may give. -/
def permits : AckKind → Reason → Bool
  | .pubAck | .pubRec => publishReason
  | .pubRel | .pubComp => releaseReason

end AckKind

/-- An acknowledgment, of whichever kind. -/
structure Ack where
  id : UInt16
  reason : Reason
  properties : Properties
  deriving DecidableEq

namespace Ack

/-- An acknowledgment with a reason and no properties. -/
def ofReason (id : UInt16) (reason : Reason) : Ack := ⟨id, reason, .empty⟩

/-- The acknowledgment that says all of this that v3.1.1 can say. -/
def bare (a : Ack) : Ack := ofReason a.id .success

/-- The acknowledgment as a version can say it. -/
def inVersion (v : Version) (a : Ack) : Ack :=
  match v with
  | .v311 => a.bare
  | .v5 => a

/-- Write the body of an acknowledgment. -/
def encodeBody (a : Ack) : Output :=
  .put (Bytes.ofWord a.id) ++
  if a.reason = .success ∧ a.properties.isEmpty then .empty
  else .put [a.reason.toByte] ++ if a.properties.isEmpty then .empty else a.properties.encode

/-- Read the reason of an acknowledgment. -/
def decodeReason (kind : AckKind) : Decoder Reason := do
  .require (← .has 1) (.malformed (.missingReason kind.packetType))
  let code ← .u8
  match Reason.ofByte? code with
  | none => .refuse (.malformed (.unknownReason kind.packetType code))
  | some reason =>
    .require (kind.permits reason) (.malformed (.forbiddenReason kind.packetType reason))
    return reason

/-- Read the body of an acknowledgment. The announced length decides which parts follow. -/
def decodeBody (kind : AckKind) (flags : UInt8) (length : Nat) : Decoder Ack := do
  .require (!(kind = .pubRel && flags ≠ kind.flags)) (.malformed (.releaseFlags flags))
  .require (2 ≤ length && (← .has 2)) (.malformed (.missingIdentifier kind.packetType))
  let id ← .u16
  .require (id ≠ 0) (.malformed (.zeroIdentifier kind.packetType))
  if length = 2 then return ofReason id .success
  let reason ← decodeReason kind
  let properties ← if 3 < length then Properties.decode else pure .empty
  return ⟨id, reason, properties⟩

end Ack

end Mqtt
