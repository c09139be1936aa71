import Mqtt.Client.Basic
import Mqtt.Delivery

/-!
# Received packets

What a client does about a packet from the server. `receive` refuses everything but CONNACK before
the connection is accepted; `handle` takes each packet to its reaction. An acknowledgment that
nothing waits for is ignored.

An accepted CONNACK that resumes the session sends every outbound exchange again, in the order of
their start: a PUBLISH with its DUP bit set, a PUBREL as it is. A frame that was retained under
another version is converted first, and its record with it.
-/

namespace Mqtt

namespace Client

namespace Reaction

/-! ## CONNACK -/

/-- The frame of the exchange with a key in the version of the connection. -/
def currentFrame (k : Key) (e : Exchange) : Reaction Bytes := do
  let version := (← client).version
  if e.version = version then return e.frame
  let frame ← Retained.convert e.frame e.version version
  record (·.reencode k frame version)
  return frame

/-- Send an outbound exchange again. -/
def resume (k : Key) : Reaction Unit := do
  match (← session).ledger.get? k with
  | none => return
  | some e =>
    let frame ← currentFrame k e
    if e.awaits = .pubComp then send frame else send (← Publish.markDup frame)

/-- Send every outbound exchange again. -/
def resumeAll : Reaction Unit := do
  ((← session).ledger.keys.filter (·.direction = .outbound)).forM resume

/-- The connection is refused. -/
def refused (reason : Reason) : Reaction Unit := do
  update fun c => { c with phase := .disconnected }
  emit (.connAck false reason)
  emit (.error (.refused reason))
  perform .close

/-- What the server decides in place of the client. -/
def overrides (properties : Properties) (c : Client) : Client :=
  match c.version with
  | .v311 => c
  | .v5 =>
    { c with
      session := { c.session with
        expiry := ((properties.long? .sessionExpiryInterval).map .ofInterval).getD
          c.session.expiry }
      keepAlive := (properties.word? .serverKeepAlive).getD c.keepAlive }

/-- The connection is accepted. -/
def accepted (p : ConnAck) : Reaction Unit := do
  update (overrides p.properties)
  if !p.sessionPresent && !(← session).isEmpty then purge
  update fun c => { c with
    phase := .connected p.sessionPresent
    session := { c.session with endedAt := none } }
  emit (.connAck p.sessionPresent p.reason)
  let seconds := (← client).keepAlive
  if 0 < seconds then perform (.keepAlive seconds)
  if p.sessionPresent then resumeAll

/-- React to CONNACK. -/
def onConnAck (p : ConnAck) : Reaction Unit := do
  if (← client).phase ≠ .connecting then throw (.protocol .unexpectedConnAck)
  if p.reason.isError then refused p.reason else accepted p

/-! ## Publishing -/

/-- Take a step of an exchange. -/
def take (message : Option Message) : Delivery.Step → Reaction Unit
  | .deliver _ =>
    match message with
    | some m => emit (.publish m)
    | none => return
  | .sendPubAck id => sendAck .pubAck id .success
  | .sendPubRec id => trackInbound id .success
  | .resendPubRec id => resend (.inbound id)
  | .sendPubRel id => releaseOutbound id .success
  | .resendPubRel id => resend (.outbound id)
  | .sendPubComp id reason => sendAck .pubComp id reason
  | .complete id direction _ => complete ⟨id, direction⟩
  | .unsolicited _ _ => return
  | .outOfOrder id expected received => throw (.outOfOrder id expected received)

/-- Take steps in order. -/
def takeAll (message : Option Message) (steps : List Delivery.Step) : Reaction Unit :=
  steps.forM (take message)

/-- What the exchange that a PUBLISH repeats waits for, if there is one. -/
def repeated (l : Ledger) (p : Publish) : Option PacketType :=
  match p.qos, p.id with
  | .exactlyOnce, some id => l.awaits? (.inbound id)
  | _, _ => none

/-- React to PUBLISH. -/
def onPublish (p : Publish) : Reaction Unit := do
  let awaits := repeated (← session).ledger p
  takeAll (some (.ofPublish p))
    (Delivery.onPublish p.id p.qos awaits (← client).options.autoAck)

/-- React to an acknowledgment of a message that this client published. -/
def onReply (kind : AckKind) (a : Ack)
    (steps : Option PacketType → List Delivery.Step) : Reaction Unit := do
  let awaits := (← session).ledger.awaits? (.outbound a.id)
  takeAll none (steps awaits)
  if awaits = some kind.packetType then emit (.ack kind a.id a.reason)

/-- React to PUBREL. -/
def onPubRel (a : Ack) : Reaction Unit := do
  let awaits := (← session).ledger.awaits? (.inbound a.id)
  takeAll none (Delivery.onPubRel a.id awaits (← client).options.autoAck)
  emit (.ack .pubRel a.id a.reason)

/-- React to an acknowledgment. -/
def onAck (kind : AckKind) (a : Ack) : Reaction Unit := do
  match kind with
  | .pubAck => onReply kind a (Delivery.onPubAck a.id a.reason)
  | .pubRec =>
    let auto := (← client).options.autoAck
    onReply kind a (Delivery.onPubRec a.id a.reason · auto)
  | .pubComp => onReply kind a (Delivery.onPubComp a.id a.reason)
  | .pubRel => onPubRel a

/-! ## Other packets -/

/-- React to SUBACK. -/
def onSubAck (p : FilterAck) : Reaction Unit := do
  let (done, s) := (← session).completeSubscribe p.id
  updateSession fun _ => s
  if done.isSome then emit (.subAck p.id p.reasons)

/-- React to UNSUBACK. -/
def onUnsubAck (p : FilterAck) : Reaction Unit := do
  let (done, s) := (← session).completeUnsubscribe p.id
  updateSession fun _ => s
  if done.isSome then emit (.unsubAck p.id p.reasons)

/-- React to DISCONNECT. -/
def onDisconnect (p : Disconnect) : Reaction Unit := do
  if p.reason.isError then emit (.error (.connection (.closedByServer p.reason)))
  perform .close

/-- React to a packet, connected or not. -/
def handle : Packet → Reaction Unit
  | .connAck p => guarded (onConnAck p)
  | .publish p => guarded (onPublish p)
  | .ack kind a => guarded (onAck kind a)
  | .subAck p => onSubAck p
  | .unsubAck p => onUnsubAck p
  | .pingResp => return
  | .disconnect p => onDisconnect p
  | p => guarded (throw (.protocol (.clientOnly p.packetType)))

/-- React to a packet from the server. -/
def receive (p : Packet) : Reaction Unit := do
  if !(← client).isConnected && p.packetType ≠ .connAck then
    guarded (throw (.protocol (.beforeConnAck p.packetType)))
  else handle p

end Reaction

end Client

end Mqtt
