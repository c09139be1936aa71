import Mqtt.Client.Operation
import Mqtt.Link.Transport

/-!
# Links

A link is a client at work: it owns a transport and carries out the actions of the client. Frames
are written, events wait to be asked for, changes of the records go to the sink if there is one.

`Task.lose` is how every connection ends: the transport is closed and the client is told. A write
that fails loses the connection and ends the list of actions that it stands in. A publish whose
frame was not written is abandoned, so it is not sent by a later connection either.
-/

namespace Mqtt

/-- A client with its transport. -/
structure Link where
  client : Client
  transport : Transport := {}
  /-- Whether changes of the records are passed on. -/
  persists : Bool := true
  /-- The time. -/
  now : Nat := 0
  /-- What has arrived and is no whole packet yet. -/
  received : Bytes := []
  keepAlive : Option KeepAlive := none
  /-- The events that wait to be asked for, in order. -/
  events : List Client.Event := []
  deriving Inhabited

namespace Link

/-- A link in the middle of a task, with what it has done so far. -/
structure Turn where
  link : Link
  /-- What has reached the transport. -/
  traffic : Array Traffic := #[]
  /-- What has been passed on to the sink. -/
  changes : Array Change := #[]

/-- A part of what a link does. -/
abbrev Task := ExceptT Error (StateM Turn)

namespace Task

variable {α : Type}

/-- The link as it is now. -/
def link : Task Link := return (← get).link

/-- Its client as it is now. -/
def client : Task Client := return (← link).client

/-- Change the link. -/
def update (f : Link → Link) : Task Unit := modify fun t => { t with link := f t.link }

/-- Something has reached the transport. -/
def note (x : Traffic) : Task Unit := modify fun t => { t with traffic := t.traffic.push x }

/-- Pass a change of the records on. -/
def persist (x : Change) : Task Unit := do
  if (← link).persists then modify fun t => { t with changes := t.changes.push x }

/-- Queue events. -/
def queue (es : List Client.Event) : Task Unit :=
  update fun l => { l with events := l.events ++ es }

/-- Have the client react, and yield what it wants done. -/
def ask (x : Client.Reaction α) : Task (α × List Client.Action) := do
  let o := x.run (← client)
  update fun l => { l with client := o.client }
  return (← o.result, o.actions)

/-- End the connection. That the transport cannot be closed cleanly makes no difference. -/
def lose : Task Unit := do
  update fun l => { l with keepAlive := none }
  note .close
  let _ := (← link).transport.close
  let (_, actions) ← ask (.connectionLost (← link).now)
  queue (actions.filterMap (·.event?))

/-- End the connection because of an error. -/
def loseWith (e : Error) : Task α := do
  lose
  throw e

/-- Write a frame. -/
def write (frame : Bytes) : Task Unit := do
  let (result, x, transport) := (← link).transport.write frame
  note x
  update fun l => { l with transport }
  match result with
  | .ok () => update fun l => { l with keepAlive := l.keepAlive.map (·.sent l.now) }
  | .error e => loseWith e

/-- Carry out an action. -/
def carryOut : Client.Action → Task Unit
  | .send frame => write frame
  | .emit e => queue [e]
  | .persist x => persist x
  | .keepAlive seconds => update fun l => { l with
      keepAlive := some (.start l.client.options.keepAlive (.ofSecs seconds.toNat) l.now) }
  | .close => lose

/-- Carry out actions in order, up to a write that fails. -/
def carryOutAll (actions : List Client.Action) : Task Unit := actions.forM carryOut

/-- Have the client react, and carry out what it wants done. -/
def react (x : Client.Reaction α) : Task α := do
  let (a, actions) ← ask x
  carryOutAll actions
  return a

/-- Forget a PUBLISH that could not be written. -/
def abandon : Option UInt16 → Task Unit
  | none => return
  | some id => do
    let (_, actions) ← ask (.abandon id)
    (actions.filterMap (·.change?)).forM persist

/-- Have the client publish, and abandon the message if it cannot be written. -/
def publish (x : Client.Reaction (Option UInt16)) : Task (Option UInt16) := do
  let (id, actions) ← ask x
  tryCatch (carryOutAll actions) fun e => do
    abandon id
    throw e
  return id

/-- Do what the application asks for. -/
def request : Client.Request → Task (Option UInt16)
  | .publish p => publish (.publish p)
  | .publishWithId id p => do
    let _ ← publish do
      Client.Reaction.publishWithId id p
      return some id
    return none
  | r => react r.react

end Task

end Link

end Mqtt
