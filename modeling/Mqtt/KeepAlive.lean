import Mqtt.Duration

/-!
# Keeping a connection alive

After a share of the keep-alive interval without sending, a PINGREQ is due; when a PINGREQ has gone
unanswered for another share of it, the connection has timed out. `KeepAlive.deadline` says when
`KeepAlive.poll` next has something to report. Times are milliseconds of one clock.
-/

namespace Mqtt

namespace KeepAlive

/-- The shares of the keep-alive interval, in percent. -/
structure Config where
  pingPercent : UInt8 := 75
  timeoutPercent : UInt8 := 150
  deriving DecidableEq, Inhabited

namespace Config

/-- Pings that leave more time for an answer. -/
def conservative : Config := { pingPercent := 50 }

/-- A share of an interval, in whole milliseconds. -/
def share (interval : Duration) (percent : UInt8) : Nat :=
  interval.millis * percent.toNat / 100

/-- The time without sending after which a ping is due. -/
def pingInterval (c : Config) (interval : Duration) : Nat := share interval c.pingPercent

/-- The time after which an unanswered ping ends the connection. -/
def timeout (c : Config) (interval : Duration) : Nat := share interval c.timeoutPercent

end Config

/-- What is due. -/
inductive Due
  | idle
  | sendPing
  | timedOut
  deriving DecidableEq, Repr

/-- The name of what is due. -/
def Due.name : Due → String
  | .idle => "Idle"
  | .sendPing => "SendPing"
  | .timedOut => "TimedOut"

end KeepAlive

/-- The keep-alive of one connection: the last time anything was sent and the unanswered ping. -/
structure KeepAlive where
  config : KeepAlive.Config
  interval : Duration
  lastSent : Nat
  pingSent : Option Nat := none
  deriving DecidableEq

namespace KeepAlive

/-- The keep-alive of a connection made now. -/
def start (config : Config) (interval : Duration) (now : Nat) : KeepAlive :=
  { config, interval, lastSent := now }

/-- Whether the connection is kept alive at all. -/
def isEnabled (k : KeepAlive) : Bool := !k.interval.isZero

/-- A packet was sent. -/
def sent (k : KeepAlive) (now : Nat) : KeepAlive := { k with lastSent := now }

/-- A PINGREQ was sent. -/
def pinged (k : KeepAlive) (now : Nat) : KeepAlive :=
  { k with lastSent := now, pingSent := some now }

/-- A PINGRESP arrived. -/
def answered (k : KeepAlive) : KeepAlive := { k with pingSent := none }

/-- When something is due next. -/
def deadline (k : KeepAlive) : Option Nat :=
  if k.isEnabled then
    match k.pingSent with
    | some t => some (t + k.config.timeout k.interval)
    | none => some (k.lastSent + k.config.pingInterval k.interval)
  else none

/-- What is due now. -/
def poll (k : KeepAlive) (now : Nat) : Due :=
  match k.deadline with
  | none => .idle
  | some t =>
    if now < t then .idle
    else if k.pingSent.isSome then .timedOut
    else .sendPing

end KeepAlive

end Mqtt
