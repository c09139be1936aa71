import Mqtt.Client.Basic

/-!
# Making and losing connections

A clean start, or one after the session has run out, forgets the session. A graceful end keeps it
only if its expiry retains it; a connection that is lost always keeps it and leaves the decision to
the next `connect`. Requests that wait for an answer never outlive their connection.
-/

namespace Mqtt

namespace Client

namespace Reaction

/-- Start a connection. -/
def connect (o : ConnectOptions) (now : Nat) : Reaction Unit := do
  if !(← client).isDisconnected then throw .alreadyConnected
  let frame ← (Packet.connect (.ofOptions o)).toBytes
  if o.cleanStart || (← session).hasExpired now then purge
  update fun c => { c with
    phase := .connecting
    version := o.version
    keepAlive := o.keepAliveSecs
    advertisedLimit := o.advertisedLimit
    session := { c.session with expiry := .ofOptions o } }
  send frame

/-- End a connection with DISCONNECT. -/
def disconnect (now : Nat) : Reaction Unit := do
  requireConnected
  send (← (Packet.disconnect (.normal (← client).version)).toBytes)
  update fun c => { c with phase := .disconnected, session := c.session.dropRequests }
  if (← session).expiry.retains then updateSession fun s => { s with endedAt := some now }
  else purge
  emit .close
  perform .close

/-- The connection is gone. -/
def connectionLost (now : Nat) : Reaction Unit := do
  if (← client).isDisconnected then return
  update fun c => { c with
    phase := .disconnected
    session := { c.session.dropRequests with endedAt := some now } }
  emit .close

/-- Take in the record of an exchange, while there is no connection. -/
def restore (id : UInt16) (data : Bytes) : Reaction Unit := do
  if !(← client).isDisconnected then throw (.misuse .restoreWhileConnected)
  let e ← Record.decode id data
  let s ← (← session).restore e
  updateSession fun _ => s

end Reaction

end Client

end Mqtt
