import Mqtt.Session.Exchange

/-!
# The ledger of exchanges

The exchanges in flight, in the order in which they were started. Each entry has a place; a change
leaves an exchange in its place, which is what makes a resumed session send messages again in the
order of their first publication. `Ledger.toList` is the view: the exchanges by their places.

Places are never used again, so `nextPlace` only grows.
-/

namespace Mqtt

/-- The exchanges in flight, by the order of their start. -/
structure Ledger where
  /-- The exchange at each place. -/
  entries : Std.ExtTreeMap Nat Exchange := ∅
  /-- The place of each key. -/
  places : Std.ExtTreeMap Key Nat := ∅
  /-- A place above all that were used. -/
  nextPlace : Nat := 0
  deriving Inhabited

namespace Ledger

/-- No exchange is in flight. -/
def empty : Ledger := {}

/-- The exchanges, in order. -/
def toList (l : Ledger) : List Exchange := l.entries.toList.map (·.2)

/-- The keys, in order. -/
def keys (l : Ledger) : List Key := l.toList.map Exchange.key

/-- The number of exchanges. -/
def size (l : Ledger) : Nat := l.entries.size

/-- Whether no exchange is in flight. -/
def isEmpty (l : Ledger) : Bool := l.entries.isEmpty

/-- Whether there is an exchange with a key. -/
def contains (l : Ledger) (k : Key) : Bool := l.places.contains k

/-- The exchange with a key. -/
def get? (l : Ledger) (k : Key) : Option Exchange := do l.entries[← l.places[k]?]?

/-- The type of packet that the exchange with a key waits for. -/
def awaits? (l : Ledger) (k : Key) : Option PacketType := (l.get? k).map (·.awaits)

/-- Put an exchange behind all others. -/
def insert (l : Ledger) (e : Exchange) : Except Error Ledger :=
  if l.contains e.key then .error (.identifierInUse e.id)
  else .ok {
    entries := l.entries.insert l.nextPlace e
    places := l.places.insert e.key l.nextPlace
    nextPlace := l.nextPlace + 1 }

/-- Change the exchange with a key in its place, unless the change is refused. -/
def modify (l : Ledger) (k : Key) (f : Exchange → Except Error Exchange) : Except Error Ledger :=
  match l.places[k]? with
  | none => .error (.identifierNotFound k.id)
  | some place =>
    match l.entries[place]? with
    | none => .error (.identifierNotFound k.id)
    | some e => do return { l with entries := l.entries.insert place (← f e) }

/-- Move an exchange on to its next packet and frame. -/
def update (l : Ledger) (k : Key) (awaits : PacketType) (frame : Bytes) : Except Error Ledger :=
  l.modify k fun e => { e with awaits, frame }.checked

/-- Replace the retained frame by one of another version. -/
def replaceFrame (l : Ledger) (k : Key) (frame : Bytes) (version : Version) :
    Except Error Ledger :=
  l.modify k fun e => .ok { e with frame, version }

/-- Take the exchange with a key out, if there is one. -/
def erase (l : Ledger) (k : Key) : Ledger :=
  match l.places[k]? with
  | none => l
  | some place => { l with entries := l.entries.erase place, places := l.places.erase k }

/-- Take all exchanges out. -/
def clear (l : Ledger) : Ledger := { l with entries := ∅, places := ∅ }

end Ledger

end Mqtt
