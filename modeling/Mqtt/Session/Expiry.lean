import Mqtt.Options.Basic

/-!
# Session expiry

How long a session outlives its connection. A clean v3.1.1 session ends with the connection and any
other v3.1.1 session never; v5.0 gives the time in seconds, with zero and the greatest number for
the two extremes.
-/

namespace Mqtt

/-- How long a session outlives its connection. -/
inductive Expiry
  | onDisconnect
  | after (millis : Nat)
  | never
  deriving DecidableEq, Inhabited

namespace Expiry

/-- The expiry that a v5.0 interval in seconds asks for. -/
def ofInterval (seconds : UInt32) : Expiry :=
  if seconds = 0 then .onDisconnect
  else if seconds = 0xFFFFFFFF then .never
  else .after (seconds.toNat * 1000)

/-- The expiry that the options of a connection ask for. -/
def ofOptions (o : ConnectOptions) : Expiry :=
  match o.version with
  | .v311 => if o.cleanStart then .onDisconnect else .never
  | .v5 => ofInterval (o.properties.sessionExpiry.getD 0)

/-- Whether the session outlives its connection at all. -/
def retains : Expiry → Bool
  | .onDisconnect => false
  | .after _ | .never => true

/-- Whether a session whose connection ended at one time is gone at another. -/
def isExpired (x : Expiry) (ended now : Nat) : Bool :=
  match x with
  | .onDisconnect => true
  | .never => false
  | .after millis => millis ≤ now - ended

end Expiry

end Mqtt
