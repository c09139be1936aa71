import Mqtt.Session.Record

/-!
# Persisted records

Every change of the ledger is reported as a `Change`. A `Sink` keeps the records that the changes
leave, in the order in which they were first stored.
-/

namespace Mqtt

/-- A change of the records kept outside the process. -/
inductive Change
  | store (key : Key) (data : Bytes)
  | update (key : Key) (data : Bytes)
  | erase (key : Key)
  deriving DecidableEq

namespace Change

/-- The key whose record changes. -/
def key : Change → Key
  | .store k _ | .update k _ | .erase k => k

/-- An exchange was started. -/
def started (e : Exchange) : Change := .store e.key (Record.encode e)

/-- An exchange moved on. -/
def moved (e : Exchange) : Change := .update e.key (Record.encode e)

end Change

/-- Records in the order in which they were first stored. -/
structure Sink where
  records : List (Key × Bytes) := []
  deriving DecidableEq, Inhabited

namespace Sink

/-- No records. -/
def empty : Sink := {}

/-- The record of a key. -/
def get? (s : Sink) (k : Key) : Option Bytes := (s.records.find? (·.1 = k)).map (·.2)

/-- Write a record: in its place if the key has one, else behind all others. -/
def put (s : Sink) (k : Key) (data : Bytes) : Sink :=
  ⟨go s.records⟩
where
  /-- The search for the key. -/
  go : List (Key × Bytes) → List (Key × Bytes)
    | [] => [(k, data)]
    | r :: rs => if r.1 = k then (k, data) :: rs else r :: go rs

/-- Remove the record of a key. -/
def erase (s : Sink) (k : Key) : Sink := ⟨s.records.filter (·.1 ≠ k)⟩

/-- Follow a change. -/
def apply (s : Sink) : Change → Sink
  | .store k data | .update k data => s.put k data
  | .erase k => s.erase k

/-- Follow changes in order. -/
def applyAll (s : Sink) (changes : List Change) : Sink := changes.foldl apply s

end Sink

end Mqtt
