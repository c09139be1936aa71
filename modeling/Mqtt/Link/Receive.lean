import Mqtt.Link.Basic
import Mqtt.Packet.Stream

/-!
# Waiting for the server

A link reads when it waits: for CONNACK in `connect`, for the next event in `poll`. While it waits
it keeps the connection alive, and a PINGREQ that goes unanswered ends the connection, as the end of
the stream, a failed read and a packet that cannot be read do.
-/

namespace Mqtt

namespace Link

namespace Task

/-- The keep-alive deadline has come. -/
def onDeadline : Task Unit := do
  let l ← link
  match l.keepAlive with
  | none => return
  | some k =>
    match k.poll l.now with
    | .idle => return
    | .sendPing =>
      react .ping
      update fun l => { l with keepAlive := l.keepAlive.map (·.pinged l.now) }
    | .timedOut => loseWith .keepAliveTimeout

/-- Read a packet in at most `fuel` reads. -/
def packetUpTo : Nat → Task Packet
  | 0 => loseWith .closedByPeer
  | fuel + 1 => do
    let l ← link
    match Stream.next l.client.version l.client.incomingLimit l.received with
    | .packet p rest =>
      update fun l => { l with received := rest }
      return p
    | .refused e rest =>
      update fun l => { l with received := rest }
      loseWith e
    | .incomplete =>
      let (wake, transport, now) := l.transport.read (l.keepAlive.bind (·.deadline)) l.now
      update fun l => { l with transport, now }
      match wake with
      | .octets [] => loseWith .closedByPeer
      | .octets b =>
        update fun l => { l with received := l.received ++ b }
        packetUpTo fuel
      | .failed e => loseWith e
      | .deadline =>
        onDeadline
        packetUpTo fuel

/-- Read a packet. A read takes something off the script, ends the connection or is cut short by a
deadline; the first deadline sends PINGREQ and the second ends the connection. -/
def packet : Task Packet := do
  packetUpTo (Arrival.amount (← link).transport.script + 3)

/-- Open a connection and wait until it is accepted. Anything but CONNACK ends it, so one packet is
all that is waited for. -/
def connect (o : ConnectOptions) : Task (Bool × Reason) := do
  if !(← client).isDisconnected then throw .alreadyConnected
  update fun l => { l with received := [] }
  note .connect
  let opened := (← link).transport.connect
  opened
  react (.connect o (← link).now)
  let p ← packet
  react (.receive p)
  match p with
  | .connAck a =>
    if (← client).isConnected then return (a.sessionPresent, a.reason)
    throw (.refused a.reason)
  | _ => throw (.connection .closedBeforeConnAck)

/-- Wait for the next event, for at most `fuel` packets. Events that wait come first, also after
the connection is gone. -/
def pollUpTo : Nat → Task Client.Event
  | 0 => loseWith .closedByPeer
  | fuel + 1 => do
    match (← link).events with
    | e :: events =>
      update fun l => { l with events }
      return e
    | [] =>
      if !(← client).isConnected then throw .notConnected
      let p ← packet
      if p = .pingResp then
        update fun l => { l with keepAlive := l.keepAlive.map (·.answered) }
      react (.receive p)
      pollUpTo fuel

/-- The octets that have arrived or are still to arrive. -/
def ahead : Task Nat := do
  let l ← link
  return l.received.length + Arrival.amount l.transport.script

/-- Wait for the next event. Each packet takes octets. -/
def poll : Task Client.Event := do pollUpTo ((← ahead) + 2)

/-- End the connection with DISCONNECT. -/
def disconnect : Task Unit := do react (.disconnect (← link).now)

end Task

/-! ## Taking every event -/

/-- A number of events that a link cannot exceed: those that wait, and at most four for each
packet. -/
def eventBound (t : Turn) : Nat :=
  t.link.events.length + 4 * (t.link.received.length + Arrival.amount t.link.transport.script) + 8

/-- Wait for at most `fuel` events. -/
def pollAllUpTo : Nat → StateM Turn (List (Nat × Client.Event) × Error)
  | 0 => return ([], .notConnected)
  | fuel + 1 => do
    match ← Task.poll.run with
    | .error e => return ([], e)
    | .ok event =>
      let now := (← get).link.now
      let (events, e) ← pollAllUpTo fuel
      return ((now, event) :: events, e)

/-- Wait for events, with the time of each, until an error ends the waiting. -/
def pollAll : StateM Turn (List (Nat × Client.Event) × Error) := do
  pollAllUpTo (eventBound (← get))

/-- Give up at most `fuel` events to a handler, which has `seen` others. -/
def runUpTo (goOn : List Client.Event → Client.Event → Bool) :
    Nat → List Client.Event → StateM Turn (List Client.Event × Except Error Unit)
  | 0, seen => return (seen, .ok ())
  | fuel + 1, seen => do
    match ← Task.poll.run with
    | .error .notConnected => return (seen, .ok ())
    | .error e =>
      let events := (← get).link.events
      modify fun t => { t with link.events := [] }
      return (seen ++ .error e :: events, .error e)
    | .ok event =>
      let l := (← get).link
      if !goOn seen event then
        let result ← if l.client.isConnected then Task.disconnect.run else pure (.ok ())
        return (seen ++ [event], result)
      if event = .close && !l.client.isConnected && l.events.isEmpty then
        return (seen ++ [event], .ok ())
      runUpTo goOn fuel (seen ++ [event])

/-- Give every event to a handler until the connection is closed. The handler says from the events
before and the new one whether to go on; if not, the client disconnects. An error ends the
connection, and the handler gets it and the events that still wait. Yields what the handler got and
how it ended. -/
def run (goOn : List Client.Event → Client.Event → Bool) :
    StateM Turn (List Client.Event × Except Error Unit) := do
  runUpTo goOn (eventBound (← get)) []

end Link

end Mqtt
