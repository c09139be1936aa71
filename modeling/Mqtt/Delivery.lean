import Mqtt.Basic
import Mqtt.Reason

/-!
# Delivery

What a received packet asks for in a QoS 1 or QoS 2 exchange. Each rule looks only at the type of
packet that the exchange waits for, if there is one, and yields the steps to take; carrying them
out is up to the client.

An acknowledgment that no exchange waits for is unsolicited, one that comes at the wrong time is
out of order. Two repetitions are answered again instead: a PUBREC after the PUBREL was sent, and a
QoS 2 PUBLISH whose PUBREC was sent.
-/

namespace Mqtt

namespace Delivery

/-- A step of an exchange. -/
inductive Step
  /-- Give the message to the application. -/
  | deliver (id : Option UInt16)
  | sendPubAck (id : UInt16)
  /-- Send a PUBREC and wait for PUBREL. -/
  | sendPubRec (id : UInt16)
  /-- Send the retained PUBREC again. -/
  | resendPubRec (id : UInt16)
  /-- Send a PUBREL and wait for PUBCOMP. -/
  | sendPubRel (id : UInt16)
  /-- Send the retained PUBREL again. -/
  | resendPubRel (id : UInt16)
  | sendPubComp (id : UInt16) (reason : Reason)
  /-- End the exchange. -/
  | complete (id : UInt16) (direction : Direction) (reason : Reason)
  | unsolicited (id : UInt16) (received : PacketType)
  | outOfOrder (id : UInt16) (expected received : PacketType)
  deriving DecidableEq

/-- A PUBACK for an exchange that waits for `awaits`. -/
def onPubAck (id : UInt16) (reason : Reason) (awaits : Option PacketType) : List Step :=
  match awaits with
  | none => [.unsolicited id .pubAck]
  | some .pubAck => [.complete id .outbound reason]
  | some t => [.outOfOrder id t .pubAck]

/-- A PUBREC for an exchange that waits for `awaits`. A refusal ends the exchange. -/
def onPubRec (id : UInt16) (reason : Reason) (awaits : Option PacketType) (autoAck : Bool) :
    List Step :=
  match awaits with
  | none => [.unsolicited id .pubRec]
  | some .pubRec =>
    if reason.isError then [.complete id .outbound reason]
    else if autoAck then [.sendPubRel id]
    else []
  | some .pubComp => [.resendPubRel id]
  | some t => [.outOfOrder id t .pubRec]

/-- A PUBCOMP for an exchange that waits for `awaits`. -/
def onPubComp (id : UInt16) (reason : Reason) (awaits : Option PacketType) : List Step :=
  match awaits with
  | none => [.unsolicited id .pubComp]
  | some .pubComp => [.complete id .outbound reason]
  | some t => [.outOfOrder id t .pubComp]

/-- A PUBLISH, while the inbound exchange with its identifier, if there is one, waits for `awaits`.
Without automatic acknowledgment that exchange begins when the application sends PUBREC, so until
then a repeated PUBLISH is delivered again. -/
def onPublish (id : Option UInt16) (qos : QoS) (awaits : Option PacketType) (autoAck : Bool) :
    List Step :=
  match qos, id with
  | .atLeastOnce, some id => .deliver (some id) :: if autoAck then [.sendPubAck id] else []
  | .exactlyOnce, some id =>
    if awaits.isSome then [.resendPubRec id]
    else .deliver (some id) :: if autoAck then [.sendPubRec id] else []
  | _, _ => [.deliver none]

/-- A PUBREL, while the inbound exchange, if there is one, waits for `awaits`. Without an exchange
it is answered all the same: the exchange has ended and only its PUBCOMP was lost. -/
def onPubRel (id : UInt16) (awaits : Option PacketType) (autoAck : Bool) : List Step :=
  if autoAck then
    match awaits with
    | some .pubRel => [.complete id .inbound .success, .sendPubComp id .success]
    | some t => [.outOfOrder id t .pubRel]
    | none => [.sendPubComp id .packetIdentifierNotFound]
  else []

end Delivery

end Mqtt
