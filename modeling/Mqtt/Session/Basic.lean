import Mqtt.Session.Expiry
import Mqtt.Session.IdPool
import Mqtt.Session.Ledger
import Mqtt.Session.Sink

/-!
# Sessions

What a client remembers beyond one connection: the exchanges in flight, the identifiers held, the
requests that wait for an answer, and how long all of it is to be kept. An operation that changes
the ledger yields the `Change` that keeps persisted records in step with it.

Completing an exchange or a request gives its identifier back. An operation that is refused leaves
the session as it was.
-/

namespace Mqtt

/-- A SUBSCRIBE that waits for its SUBACK. -/
structure PendingSubscribe where
  filters : List String
  qos : List QoS
  deriving DecidableEq

/-- An UNSUBSCRIBE that waits for its UNSUBACK. -/
structure PendingUnsubscribe where
  filters : List String
  deriving DecidableEq

/-- What a client remembers beyond one connection. -/
structure Session where
  ledger : Ledger := .empty
  ids : IdPool := .empty
  subscribes : Std.ExtTreeMap UInt16 PendingSubscribe := ∅
  unsubscribes : Std.ExtTreeMap UInt16 PendingUnsubscribe := ∅
  expiry : Expiry := .onDisconnect
  /-- When the connection ended, while there is none. -/
  endedAt : Option Nat := none
  deriving Inhabited

namespace Session

/-- A new session. -/
def empty : Session := {}

/-- Whether nothing is in flight and no identifier is held. -/
def isEmpty (s : Session) : Bool := s.ledger.isEmpty && s.ids.size = 0

/-- Whether the session ran out while there was no connection. -/
def hasExpired (s : Session) (now : Nat) : Bool :=
  match s.endedAt with
  | none => false
  | some ended => s.expiry.isExpired ended now

/-- Hand out an identifier: the least free one, or the one asked for. -/
def claim (s : Session) (asked : Option UInt16) : Except Error (UInt16 × Session) := do
  let (id, ids) ← s.ids.claim asked
  return (id, { s with ids })

/-- Take an identifier back if it is held. -/
def discard (s : Session) (id : UInt16) : Session := { s with ids := s.ids.discard id }

/-! ## Exchanges -/

/-- Start an exchange. The identifier of an outbound one is held already. -/
def track (s : Session) (e : Exchange) : Except Error (Change × Session) := do
  return (.started e, { s with ledger := ← s.ledger.insert e })

/-- The change that reports the exchange with a key as it is now. -/
def moved (s : Session) (k : Key) : Except Error Change :=
  match s.ledger.get? k with
  | some e => .ok (.moved e)
  | none => .error (.identifierNotFound k.id)

/-- Move an exchange on to its next packet and frame. -/
def advance (s : Session) (k : Key) (awaits : PacketType) (frame : Bytes) :
    Except Error (Change × Session) := do
  let s := { s with ledger := ← s.ledger.update k awaits frame }
  return (← s.moved k, s)

/-- Replace a retained frame by one of another version. -/
def reencode (s : Session) (k : Key) (frame : Bytes) (version : Version) :
    Except Error (Change × Session) := do
  let s := { s with ledger := ← s.ledger.replaceFrame k frame version }
  return (← s.moved k, s)

/-- End an exchange, if there is one with the key. -/
def complete (s : Session) (k : Key) : Option Change × Session :=
  if s.ledger.contains k then
    let s := { s with ledger := s.ledger.erase k }
    (some (.erase k), if k.direction = .outbound then s.discard k.id else s)
  else (none, s)

/-- Forget every exchange, identifier and request. -/
def purge (s : Session) : List Change × Session :=
  (s.ledger.keys.map .erase,
    { ledger := s.ledger.clear, expiry := s.expiry })

/-- Take in an exchange from a record. -/
def restore (s : Session) (e : Exchange) : Except Error Session := do
  if s.ledger.contains e.key then throw (.identifierInUse e.id)
  let ids ← match e.direction with
    | .outbound => s.ids.acquireSpecific e.id
    | .inbound => pure s.ids
  return { s with ids, ledger := ← s.ledger.insert e }

/-! ## Requests -/

/-- The number of requests that wait for an answer. -/
def requests (s : Session) : Nat := s.subscribes.size + s.unsubscribes.size

/-- A SUBSCRIBE was sent. -/
def trackSubscribe (s : Session) (id : UInt16) (p : PendingSubscribe) : Session :=
  { s with subscribes := s.subscribes.insert id p }

/-- A SUBSCRIBE was answered. -/
def completeSubscribe (s : Session) (id : UInt16) : Option PendingSubscribe × Session :=
  match s.subscribes[id]? with
  | none => (none, s)
  | some p => (some p, { s with subscribes := s.subscribes.erase id }.discard id)

/-- An UNSUBSCRIBE was sent. -/
def trackUnsubscribe (s : Session) (id : UInt16) (p : PendingUnsubscribe) : Session :=
  { s with unsubscribes := s.unsubscribes.insert id p }

/-- An UNSUBSCRIBE was answered. -/
def completeUnsubscribe (s : Session) (id : UInt16) : Option PendingUnsubscribe × Session :=
  match s.unsubscribes[id]? with
  | none => (none, s)
  | some p => (some p, { s with unsubscribes := s.unsubscribes.erase id }.discard id)

/-- Give up on every request: requests are not repeated on another connection. -/
def dropRequests (s : Session) : Session :=
  (s.subscribes.keys ++ s.unsubscribes.keys).foldl discard
    { s with subscribes := ∅, unsubscribes := ∅ }

end Session

end Mqtt
