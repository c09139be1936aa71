import Mqtt.Packet.Publish
import Mqtt.Packet.Ack
import Mqtt.Session.Sink

/-!
# Events and actions

What a client wants done: octets written, events given to the application, records changed, the
keep-alive started, the connection closed. Actions are carried out in their order, and a change of
the records stands before the frame that it makes safe to send.
-/

namespace Mqtt

/-- A message as the application gets it. -/
structure Message where
  topic : String
  payload : Bytes
  qos : QoS
  retain : Bool
  dup : Bool
  id : Option UInt16
  properties : Properties
  deriving DecidableEq

/-- The message that a PUBLISH carries. -/
def Message.ofPublish (p : Publish) : Message :=
  ⟨p.topic, p.payload, p.qos, p.retain, p.dup, p.id, p.properties⟩

namespace Client

/-- What the application can observe of a connection. -/
inductive Event
  | connAck (sessionPresent : Bool) (reason : Reason)
  | ack (kind : AckKind) (id : UInt16) (reason : Reason)
  | subAck (id : UInt16) (reasons : List Reason)
  | unsubAck (id : UInt16) (reasons : List Reason)
  | publish (message : Message)
  | close
  | error (e : Error)
  deriving DecidableEq

/-- What a client wants done. -/
inductive Action
  /-- Write a frame. -/
  | send (frame : Bytes)
  /-- Tell the application. -/
  | emit (event : Event)
  /-- Change the records kept outside the process. -/
  | persist (change : Change)
  /-- Start to keep the connection alive, with an interval in seconds. -/
  | keepAlive (seconds : UInt16)
  /-- Close the connection, then report its loss. -/
  | close
  deriving DecidableEq

namespace Action

/-- The frame that is to be written. -/
def frame? : Action → Option Bytes
  | .send frame => some frame
  | _ => none

/-- The event that the application is told. -/
def event? : Action → Option Event
  | .emit e => some e
  | _ => none

/-- The change of the records. -/
def change? : Action → Option Change
  | .persist c => some c
  | _ => none

end Action

end Client

end Mqtt
