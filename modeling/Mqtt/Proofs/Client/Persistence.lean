import Mqtt.Proofs.Client.Edits
import Mqtt.Proofs.Session.Sink

/-!
# Persisted records

The records kept outside the process follow the changes that a client reports: each change fits the
records that the changes before it left, and after every operation the records are those of the
exchanges in flight, in the order of their start (`records_follow`).
-/

namespace Mqtt

namespace Client

variable {c : Client}

/-- What becomes of the records in the course of operations. -/
def history (c : Client) : List Op → List Change
  | [] => []
  | op :: ops => c.recorded op ++ (c.step op).client.history ops

/-- One operation takes the records of the ledger to those of the ledger afterwards. -/
theorem follow_step (hc : c.WF) (op : Op) :
    (Sink.ofLedger c.session.ledger).followAll (c.recorded op) =
      some (.ofLedger (c.step op).client.session.ledger) :=
  (edits_step hc op).follow hc.session

theorem follow_after (hc : c.WF) (ops : List Op) :
    (Sink.ofLedger c.session.ledger).followAll (c.history ops) =
      some (.ofLedger (c.after ops).session.ledger) := by
  induction ops generalizing c with
  | nil => rfl
  | cons op ops ih =>
    rw [history, Sink.followAll_append, follow_step hc op, Option.bind_some, ih (wf_step hc op)]
    rfl

/-- Without records taken in, what becomes of the records is in the actions. -/
theorem history_eq {ops : List Op} (hops : ∀ id data, .restore id data ∉ ops) :
    c.history ops = changesOf (c.actionsOf ops) := by
  induction ops generalizing c with
  | nil => rfl
  | cons op ops ih =>
    have htaken : c.takenIn op = [] := by
      unfold takenIn
      split
      · exact absurd List.mem_cons_self (hops _ _)
      · rfl
    rw [history, recorded, htaken, List.append_nil, actionsOf, changesOf_append,
      ih fun id data h => hops id data (List.mem_cons_of_mem op h)]

/-- Every change that a client reports fits the records before it: only a new key is stored, and
only the record of a known key is updated or erased. The records that are left are those of the
exchanges in flight, in order. -/
theorem records_follow (options : ClientOptions) (ops : List Op) :
    Sink.empty.followAll ((new options).history ops) =
      some ⟨((new options).after ops).session.ledger.toList.map
        fun e => (e.key, Record.encode e)⟩ :=
  follow_after (wf_new options) ops

end Client

end Mqtt
