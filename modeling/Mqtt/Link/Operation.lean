import Mqtt.Link.Receive

/-!
# Operations of a link

The operations of a link as values, so that histories can be spoken of: `Op.perform` does one,
`Link.step` gives its outcome, and `Link.after` the link that a list of operations leaves behind.
Some operations are of the surroundings: time passes, more arrives, the transport is replaced.
-/

namespace Mqtt

namespace Link

/-- An operation of a link or of its surroundings. -/
inductive Op
  /-- The script of the transport goes on. -/
  | arrive (items : List Arrival)
  | replaceTransport (t : Transport)
  /-- Time passes. -/
  | advance (millis : Nat)
  | connect (o : ConnectOptions)
  | request (r : Client.Request)
  | restore (id : UInt16) (data : Bytes)
  | poll
  | pollAll
  /-- Give events to a handler that stops at a number of them, if there is one. -/
  | run (stopAfter : Option Nat)
  | disconnect
  /-- Drop the connection as a failing network would. -/
  | forceDisconnect
  deriving DecidableEq

/-- What an operation yields. -/
inductive Reply
  | nothing
  /-- A request was carried out, with the identifier that was chosen for it. -/
  | done (id : Option UInt16)
  | accepted (sessionPresent : Bool) (reason : Reason)
  | event (e : Client.Event)
  | events (l : List (Nat × Client.Event)) (stop : Error)
  | handled (l : List Client.Event) (result : Except Error Unit)

/-- Whether a handler that stops at its `stopAfter`-th event goes on after one more. -/
def goesOn (stopAfter : Option Nat) (seen : List Client.Event) : Bool :=
  match stopAfter with
  | none => true
  | some n => seen.length + 1 < n

/-- Do an operation. -/
def Op.perform : Op → Task Reply
  | .arrive items => do
    Task.update fun l => { l with transport.script := l.transport.script ++ items }
    return .nothing
  | .replaceTransport t => do
    Task.update fun l => { l with transport := t }
    return .nothing
  | .advance millis => do
    Task.update fun l => { l with now := l.now + millis }
    return .nothing
  | .connect o => do
    let (sessionPresent, reason) ← Task.connect o
    return .accepted sessionPresent reason
  | .request r => .done <$> Task.request r
  | .restore id data => do
    let _ ← Task.ask (.restore id data)
    return .done none
  | .poll => .event <$> Task.poll
  | .pollAll => do
    let (l, stop) ← (Link.pollAll : StateM Turn _)
    return .events l stop
  | .run stopAfter => do
    let (l, result) ← (Link.run fun seen _ => goesOn stopAfter seen : StateM Turn _)
    return .handled l result
  | .disconnect => do
    Task.disconnect
    return .done none
  | .forceDisconnect => do
    Task.lose
    return .nothing

/-- What an operation led to. -/
structure Outcome where
  reply : Except Error Reply
  /-- What reached the transport, in order. -/
  traffic : List Traffic
  /-- What was passed on to the sink, in order. -/
  changes : List Change
  link : Link

/-- The outcome of an operation. -/
def step (l : Link) (op : Op) : Outcome :=
  let (reply, t) := op.perform.run.run { link := l }
  ⟨reply, t.traffic.toList, t.changes.toList, t.link⟩

/-- The link after operations. -/
def after (l : Link) (ops : List Op) : Link := ops.foldl (fun l op => (l.step op).link) l

/-- The changes that operations pass on to the sink, in order. -/
def changesOf (l : Link) : List Op → List Change
  | [] => []
  | op :: ops => (l.step op).changes ++ (l.step op).link.changesOf ops

end Link

end Mqtt
