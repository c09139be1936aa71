import Mqtt.Client.Basic

/-!
# Requests

What the application asks of a client while it is connected: to publish, to subscribe, to
acknowledge. A request that is refused leaves the client as it was. `Request.react` is the reaction
to a request as a value.
-/

namespace Mqtt

namespace Client

namespace Reaction

/-! ## Publishing -/

/-- The acknowledgment that a message waits for first. -/
def firstAwaited : QoS → PacketType
  | .exactlyOnce => .pubRec
  | _ => .pubAck

/-- Publish a message above QoS 0 under an identifier that is claimed for it. -/
def publishTracked (p : Publish) (id : UInt16) : Reaction (Option UInt16) := do
  let frame ← (Packet.publish { p with id := some id }).toBytes
  let e ← (Exchange.mk id .outbound (firstAwaited p.qos) p.qos frame p.version).checked
  record (·.track e)
  send frame
  return some id

/-- Publish a message, under its identifier if it has one, and yield the identifier used. -/
def publish (p : Publish) : Reaction (Option UInt16) := do
  requireConnected
  let p := { p with version := (← client).version, dup := false }
  if p.qos = .atMostOnce then
    send (← (Packet.publish { p with id := none }).toBytes)
    return none
  else holding p.id (publishTracked p)

/-- Publish a message under a chosen identifier. -/
def publishWithId (id : UInt16) (p : Publish) : Reaction Unit := do
  if p.qos = .atMostOnce then throw (.misuse .identifierAtQoS0)
  if id = 0 then throw .zeroIdentifier
  let _ ← publish { p with id := some id }

/-- Forget a PUBLISH that never reached the server. An exchange that went on to PUBREL stays. -/
def abandon (id : UInt16) : Reaction Unit := do
  match (← session).ledger.get? (.outbound id) with
  | some e => if e.retains = .publish then complete (.outbound id)
  | none => return

/-! ## Subscribing -/

/-- Subscribe under an identifier that is claimed for it. -/
def subscribeTracked (filters : List TopicFilter) (id : UInt16) : Reaction UInt16 := do
  let frame ← (Packet.subscribe ⟨id, filters, .empty, (← client).version⟩).toBytes
  updateSession (·.trackSubscribe id ⟨filters.map (·.filter), filters.map (·.options.qos)⟩)
  send frame
  return id

/-- Subscribe to topic filters and yield the identifier used. -/
def subscribe (filters : List TopicFilter) (asked : Option UInt16) : Reaction UInt16 := do
  requireConnected
  if filters.isEmpty then throw (.misuse .noFilters)
  holding asked (subscribeTracked filters)

/-- Subscribe under a chosen identifier. -/
def subscribeWithId (id : UInt16) (filter : TopicFilter) : Reaction Unit := do
  if id = 0 then throw .zeroIdentifier
  let _ ← subscribe [filter] (some id)

/-- Unsubscribe under an identifier that is claimed for it. -/
def unsubscribeTracked (filter : String) (id : UInt16) : Reaction UInt16 := do
  let frame ← (Packet.unsubscribe ⟨id, [filter], .empty, (← client).version⟩).toBytes
  updateSession (·.trackUnsubscribe id ⟨[filter]⟩)
  send frame
  return id

/-- Unsubscribe from a topic filter and yield the identifier used. -/
def unsubscribe (filter : String) (asked : Option UInt16) : Reaction UInt16 := do
  requireConnected
  holding asked (unsubscribeTracked filter)

/-- Unsubscribe under a chosen identifier. -/
def unsubscribeWithId (id : UInt16) (filter : String) : Reaction Unit := do
  if id = 0 then throw .zeroIdentifier
  let _ ← unsubscribe filter (some id)

/-! ## Acknowledging -/

/-- Acknowledge a QoS 1 message. -/
def sendPubAck (id : UInt16) (reason : Reason) : Reaction Unit := do
  requireConnected
  sendAck .pubAck id reason

/-- Acknowledge a QoS 2 message and wait for its PUBREL. A refusal ends the exchange instead, and
what was acknowledged before is acknowledged again in the same way. -/
def sendPubRec (id : UInt16) (reason : Reason) : Reaction Unit := do
  requireConnected
  if (← session).ledger.contains (.inbound id) then resend (.inbound id)
  else if reason.isError then sendAck .pubRec id reason
  else trackInbound id reason

/-- Go on with a QoS 2 message after its PUBREC. -/
def sendPubRel (id : UInt16) (reason : Reason) : Reaction Unit := do
  requireConnected
  match (← session).ledger.awaits? (.outbound id) with
  | some .pubRec => releaseOutbound id reason
  | some .pubComp => resend (.outbound id)
  | some t => throw (.misuse (.notAwaitingPubRec id t))
  | none => throw (.identifierNotFound id)

/-- End the exchange of a QoS 2 message, if there is one. -/
def sendPubComp (id : UInt16) (reason : Reason) : Reaction Unit := do
  requireConnected
  let frame ← Retained.ack (← client).version .pubComp id reason
  complete (.inbound id)
  send frame

/-- Send an acknowledgment for the application. -/
def acknowledge : AckKind → UInt16 → Reason → Reaction Unit
  | .pubAck => sendPubAck
  | .pubRec => sendPubRec
  | .pubRel => sendPubRel
  | .pubComp => sendPubComp

/-- Send PINGREQ, if there is a connection. -/
def ping : Reaction Unit := do
  if (← client).isConnected then guarded do send (← Packet.pingReq.toBytes)

end Reaction

/-! ## Requests as values -/

/-- A request of the application. -/
inductive Request
  | publish (p : Publish)
  | publishWithId (id : UInt16) (p : Publish)
  | subscribe (filters : List TopicFilter) (asked : Option UInt16)
  | subscribeWithId (id : UInt16) (filter : TopicFilter)
  | unsubscribe (filter : String)
  | unsubscribeWithId (id : UInt16) (filter : String)
  | acknowledge (kind : AckKind) (id : UInt16) (reason : Reason)
  deriving DecidableEq

/-- The reaction to a request. It yields the identifier that was chosen for the request. -/
def Request.react : Request → Reaction (Option UInt16)
  | .publish p => Reaction.publish p
  | .publishWithId id p => do Reaction.publishWithId id p; return none
  | .subscribe filters asked => some <$> Reaction.subscribe filters asked
  | .subscribeWithId id filter => do Reaction.subscribeWithId id filter; return none
  | .unsubscribe filter => some <$> Reaction.unsubscribe filter none
  | .unsubscribeWithId id filter => do Reaction.unsubscribeWithId id filter; return none
  | .acknowledge kind id reason => do Reaction.acknowledge kind id reason; return none

end Client

end Mqtt
