import Mqtt.Error

/-!
# Transports

The other side of a connection as a script: what arrives and when, where the stream ends or fails,
whether it can be opened and closed, and how many writes it takes. Every behaviour of a network and
a peer is such a script.

Times are milliseconds. `Transport.read` waits as the script says, but not past a deadline.
-/

namespace Mqtt

/-- What comes next out of a transport. -/
inductive Arrival
  | data (b : Bytes)
  /-- A pause that begins when a read comes to it. -/
  | pause (millis : Nat)
  /-- A pause that a read has come to, up to a time. -/
  | pauseUntil (time : Nat)
  | endOfStream
  | fail (text : String)
  deriving DecidableEq

namespace Arrival

/-- The number of octets and entries of a script, which a read makes less. -/
def amount : List Arrival → Nat
  | [] => 0
  | .data b :: rest => b.length + 1 + amount rest
  | _ :: rest => 1 + amount rest

end Arrival

/-- A transport that follows a script. -/
structure Transport where
  script : List Arrival := []
  /-- Why it cannot be opened, if so. -/
  openFault : Option String := none
  /-- Why it cannot be closed cleanly, if so. -/
  closeFault : Option String := none
  /-- How many more writes it takes, if there is a limit. -/
  writesLeft : Option Nat := none
  deriving DecidableEq, Inhabited

/-- What reaches a transport. -/
inductive Traffic
  | connect
  | write (b : Bytes)
  | refusedWrite (b : Bytes)
  | close
  deriving DecidableEq

/-- How waiting for octets ended. -/
inductive Wake
  /-- Octets arrived; none at the end of the stream. -/
  | octets (b : Bytes)
  | failed (e : Error)
  /-- The deadline came first. -/
  | deadline
  deriving DecidableEq

namespace Transport

/-- The most octets that one read yields. -/
def chunk : Nat := 4096

/-- When a pause up to `time` is cut short by a deadline. -/
def cutShort (deadline : Option Nat) (time now : Nat) : Option Nat :=
  match deadline with
  | none => none
  | some d => if now < time ∧ d < time then some (max now d) else none

/-- Wait for octets, from `now` on. What is left of the script and the time afterwards are yielded
as well. -/
def await (deadline : Option Nat) : List Arrival → Nat → Wake × List Arrival × Nat
  | [], now => (.octets [], [], now)
  | .data b :: rest, now =>
    (.octets (b.take chunk),
      if b.length ≤ chunk then rest else .data (b.drop chunk) :: rest, now)
  | .pause millis :: rest, now =>
    match cutShort deadline (now + millis) now with
    | some t => (.deadline, .pauseUntil (now + millis) :: rest, t)
    | none => await deadline rest (now + millis)
  | .pauseUntil time :: rest, now =>
    match cutShort deadline time now with
    | some t => (.deadline, .pauseUntil time :: rest, t)
    | none => await deadline rest (max now time)
  | .endOfStream :: rest, now => (.octets [], rest, now)
  | .fail text :: rest, now => (.failed (.io text), rest, now)

/-- Wait for octets. -/
def read (t : Transport) (deadline : Option Nat) (now : Nat) : Wake × Transport × Nat :=
  let (wake, script, now) := await deadline t.script now
  (wake, { t with script }, now)

/-- Open it. -/
def connect (t : Transport) : Except Error Unit :=
  match t.openFault with
  | none => .ok ()
  | some text => .error (.connection (.other text))

/-- Write octets. -/
def write (t : Transport) (b : Bytes) : Except Error Unit × Traffic × Transport :=
  match t.writesLeft with
  | none => (.ok (), .write b, t)
  | some 0 => (.error (.io "write refused"), .refusedWrite b, t)
  | some (n + 1) => (.ok (), .write b, { t with writesLeft := some n })

/-- Close it. -/
def close (t : Transport) : Except Error Unit :=
  match t.closeFault with
  | none => .ok ()
  | some text => .error (.io text)

end Transport

end Mqtt
