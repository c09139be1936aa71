import Mqtt.Client.Action
import Mqtt.Options.Basic
import Mqtt.Packet.Retained
import Mqtt.Session.Basic

/-!
# The client

A client is a pure machine. Every input, be it a request of the application, a received packet or a
lost connection, is a `Reaction`: it changes the client and adds to the list of actions, and it may
be refused. `Reaction.run` gives the outcome, in which a refused input has no actions.

Two ways of handling an error occur. `Reaction.guarded` reports it to the application and ends the
connection, which is what an error in a received packet does. `Reaction.holding` gives back the
identifier that a request had claimed, so that a refused request leaves the client as it was.
-/

namespace Mqtt

/-- How far a connection has come. -/
inductive Client.Phase
  | disconnected
  /-- CONNECT was sent and waits for CONNACK. -/
  | connecting
  | connected (sessionPresent : Bool)
  deriving DecidableEq, Inhabited

/-- The client side of the protocol. -/
structure Client where
  session : Session := .empty
  phase : Client.Phase := .disconnected
  options : ClientOptions := {}
  /-- The version of this connection, or of the last one. -/
  version : Version := .v5
  /-- The keep-alive interval in seconds; the server may have overridden it. -/
  keepAlive : UInt16 := 0
  /-- The largest packet that the server was told to send. -/
  advertisedLimit : Option Nat := none
  deriving Inhabited

namespace Client

/-- A new client. -/
def new (options : ClientOptions) : Client := { options }

/-- Whether CONNACK has been accepted. -/
def isConnected (c : Client) : Bool :=
  match c.phase with
  | .connected _ => true
  | .disconnected | .connecting => false

/-- Whether there is no connection. -/
def isDisconnected (c : Client) : Bool := c.phase = .disconnected

/-- The number of exchanges in flight. -/
def pending (c : Client) : Nat := c.session.ledger.size

/-- The lesser of two limits that may be absent. -/
def lesser : Option Nat → Option Nat → Option Nat
  | some a, some b => some (min a b)
  | none, b => b
  | a, none => a

/-- The largest packet accepted from the server. -/
def incomingLimit (c : Client) : Option Nat := lesser c.options.maxIncoming c.advertisedLimit

/-! ## Reactions -/

/-- A client in the middle of an input, with the actions so far. -/
structure Turn where
  client : Client
  actions : Array Action := #[]

/-- A part of what a client does about an input. -/
abbrev Reaction := ExceptT Error (StateM Turn)

/-- What an input led to. -/
structure Outcome (α : Type) where
  result : Except Error α
  /-- The actions to carry out, in order. -/
  actions : List Action
  client : Client

namespace Reaction

variable {α : Type}

/-- React to an input. A refused input has no actions. -/
def run (x : Reaction α) (c : Client) : Outcome α :=
  match (ExceptT.run x).run { client := c } with
  | (.ok a, t) => ⟨.ok a, t.actions.toList, t.client⟩
  | (.error e, t) => ⟨.error e, [], t.client⟩

/-- The client as it is now. -/
def client : Reaction Client := return (← get).client

/-- Its session as it is now. -/
def session : Reaction Session := return (← client).session

/-- Change the client. -/
def update (f : Client → Client) : Reaction Unit := modify fun t => { t with client := f t.client }

/-- Change the session. -/
def updateSession (f : Session → Session) : Reaction Unit :=
  update fun c => { c with session := f c.session }

/-- Add an action. -/
def perform (a : Action) : Reaction Unit := modify fun t => { t with actions := t.actions.push a }

/-- Write a frame. -/
def send (frame : Bytes) : Reaction Unit := perform (.send frame)

/-- Tell the application. -/
def emit (e : Event) : Reaction Unit := perform (.emit e)

/-- Do something with the session, unless it is refused. -/
def inSession (f : Session → Except Error (α × Session)) : Reaction α := do
  let (a, s) ← f (← session)
  updateSession fun _ => s
  return a

/-- Change the ledger and the records alike. -/
def record (f : Session → Except Error (Change × Session)) : Reaction Unit := do
  perform (.persist (← inSession f))

/-- End an exchange, if there is one with the key. -/
def complete (k : Key) : Reaction Unit := do
  let (change, s) := (← session).complete k
  updateSession fun _ => s
  match change with
  | some change => perform (.persist change)
  | none => return

/-- Forget every exchange, identifier and request. -/
def purge : Reaction Unit := do
  let (changes, s) := (← session).purge
  updateSession fun _ => s
  changes.forM fun change => perform (.persist change)

/-- Send the retained frame of an exchange again. -/
def resend (k : Key) : Reaction Unit := do
  match (← session).ledger.get? k with
  | some e => send e.frame
  | none => throw (.identifierNotFound k.id)

/-- Refuse the input unless there is a connection. -/
def requireConnected : Reaction Unit := do
  if !(← client).isConnected then throw .notConnected

/-- Claim an identifier for something, and give it back if that is refused. -/
def holding (asked : Option UInt16) (x : UInt16 → Reaction α) : Reaction α := do
  let id ← inSession (·.claim asked)
  tryCatch (x id) fun e => do
    updateSession (·.discard id)
    throw e

/-- Report an error and end the connection, instead of being refused. -/
def guarded (x : Reaction Unit) : Reaction Unit :=
  tryCatch x fun e => do
    emit (.error e)
    perform .close

/-- Start an inbound exchange with a PUBREC. -/
def trackInbound (id : UInt16) (reason : Reason) : Reaction Unit := do
  let version := (← client).version
  let frame ← Retained.ack version .pubRec id reason
  let e ← (Exchange.mk id .inbound .pubRel .exactlyOnce frame version).checked
  record (·.track e)
  send frame

/-- Move an outbound exchange on to PUBREL. -/
def releaseOutbound (id : UInt16) (reason : Reason) : Reaction Unit := do
  let frame ← Retained.ack (← client).version .pubRel id reason
  record (·.advance (.outbound id) .pubComp frame)
  send frame

/-- Send an acknowledgment. -/
def sendAck (kind : AckKind) (id : UInt16) (reason : Reason) : Reaction Unit := do
  send (← Retained.ack (← client).version kind id reason)

end Reaction

end Client

end Mqtt
