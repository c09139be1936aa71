import Std.Data.ExtTreeMap
import Mqtt.Error

/-!
# Exchanges

The acknowledgments of a QoS 1 or QoS 2 message form an exchange: it waits for one type of packet
and retains the frame that has to be sent again when the connection was lost. `Exchange.check`
refuses what no exchange can be: identifier zero, a type that cannot be awaited in its direction
and quality of service, and a retained frame of another type than `retains` says.
-/

namespace Mqtt

/-! ## Keys -/

/-- What identifies an exchange. -/
structure Key where
  id : UInt16
  direction : Direction
  deriving DecidableEq

namespace Key

/-- The key of a message that this client published. -/
def outbound (id : UInt16) : Key := ⟨id, .outbound⟩

/-- The key of a message that the peer published. -/
def inbound (id : UInt16) : Key := ⟨id, .inbound⟩

/-- The place of a key among all keys. -/
def rank (k : Key) : Nat := 2 * k.id.toNat + k.direction.toByte.toNat

theorem rank_inj {a b : Key} : a.rank = b.rank ↔ a = b := by
  refine ⟨fun h => ?_, fun h => h ▸ rfl⟩
  obtain ⟨i, c⟩ := a
  obtain ⟨j, d⟩ := b
  have hij : i = j := by
    apply UInt16.toNat_inj.1
    cases c <;> cases d <;> simp [rank, Direction.toByte] at h <;> omega
  subst hij
  cases c <;> cases d <;> simp_all [rank, Direction.toByte]

instance : Ord Key := ⟨fun a b => compare a.rank b.rank⟩

instance : Std.TransOrd Key :=
  inferInstanceAs (Std.TransCmp (compareOn rank))

instance : Std.LawfulEqOrd Key where
  compare_self {a} := Nat.compare_eq_eq.2 (rfl : a.rank = a.rank)
  eq_of_compare h := rank_inj.1 (Nat.compare_eq_eq.1 h)

end Key

/-! ## Exchanges -/

/-- An exchange in flight. -/
structure Exchange where
  id : UInt16
  direction : Direction
  /-- The type of packet that moves the exchange on. -/
  awaits : PacketType
  qos : QoS
  /-- The frame to send again after the connection was lost. -/
  frame : Bytes
  version : Version
  deriving DecidableEq

namespace Exchange

/-- The key of an exchange. -/
def key (e : Exchange) : Key := ⟨e.id, e.direction⟩

/-- The type of the retained frame. -/
def retains (e : Exchange) : PacketType :=
  match e.direction, e.awaits with
  | .outbound, .pubComp => .pubRel
  | .outbound, _ => .publish
  | .inbound, _ => .pubRec

/-- Whether an exchange can await a type of packet. -/
def canAwait : Direction → QoS → PacketType → Bool
  | .outbound, .atLeastOnce, t => t = .pubAck
  | .outbound, .exactlyOnce, t => t = .pubRec || t = .pubComp
  | .inbound, .exactlyOnce, t => t = .pubRel
  | _, _, _ => false

/-- The type number in the first octet of the retained frame; an empty frame has zero. -/
def frameType (e : Exchange) : UInt8 := e.frame.headD 0 / 16

/-- Refuse what cannot be an exchange. -/
def check (e : Exchange) : Except Error Unit :=
  if e.id = 0 then .error .zeroIdentifier
  else if !canAwait e.direction e.qos e.awaits then
    .error (.corrupt (.unreachable e.direction e.qos e.awaits))
  else if e.frameType ≠ e.retains.toByte then
    .error (.corrupt (.frameType e.id e.frameType e.retains))
  else .ok ()

/-- The exchange itself, if it can be one. -/
def checked (e : Exchange) : Except Error Exchange := do
  e.check
  return e

end Exchange

end Mqtt
