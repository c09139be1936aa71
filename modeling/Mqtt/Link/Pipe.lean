import Mqtt.Error

/-!
# Pipes

One end of a pipe in memory as a transport. It is connected from the start; once closed it stays
closed. What was written before can still be read at the other end.
-/

namespace Mqtt

/-- A pipe, seen from one end. -/
structure Pipe where
  isConnected : Bool := true
  /-- Octets on their way to the other end. -/
  outgoing : Bytes := []
  /-- Octets on their way to this end. -/
  incoming : Bytes := []
  /-- Whether the other end takes part in no more writing. -/
  peerDone : Bool := false
  deriving DecidableEq, Inhabited

namespace Pipe

/-- Do something that needs the pipe to be connected. -/
def connected {α : Type} (p : Pipe) (a : α) : Except Error α :=
  if p.isConnected then .ok a else .error .notConnected

/-- Connect it, which it was from the start. -/
def connect (p : Pipe) : Except Error Unit :=
  if p.isConnected then .ok () else .error (.connection .streamClosed)

/-- Close it, if it is not closed yet. -/
def close (p : Pipe) : Pipe := { p with isConnected := false }

/-- Write octets. -/
def write (p : Pipe) (b : Bytes) : Except Error Pipe :=
  p.connected { p with outgoing := p.outgoing ++ b }

/-- Read at most `n` octets. -/
def read (p : Pipe) (n : Nat) : Except Error (Bytes × Pipe) :=
  p.connected (p.incoming.take n, { p with incoming := p.incoming.drop n })

/-! ## The other end -/

/-- The other end writes octets. They are lost if nobody can read them. -/
def peerWrite (p : Pipe) (b : Bytes) : Pipe :=
  if p.isConnected && !p.peerDone then { p with incoming := p.incoming ++ b } else p

/-- The other end reads at most `n` octets. -/
def peerRead (p : Pipe) (n : Nat) : Bytes × Pipe :=
  (p.outgoing.take n, { p with outgoing := p.outgoing.drop n })

/-- The other end stops writing. -/
def peerShutdown (p : Pipe) : Pipe := { p with peerDone := true }

end Pipe

end Mqtt
