import Mqtt.Client.Basic
import Mqtt.Proofs.Session.Invariant

/-!
# Well-formed clients

Requests wait for an answer only while there is a connection. `Client.WF` says so, next to the
invariant of the session.
-/

namespace Mqtt

namespace Session

/-- No request waits for an answer. -/
structure Idle (s : Session) : Prop where
  subscribes : s.subscribes = ∅
  unsubscribes : s.unsubscribes = ∅

variable {s : Session}

theorem idle_empty : empty.Idle := ⟨rfl, rfl⟩

theorem idle_purge (s : Session) : s.purge.2.Idle := ⟨rfl, rfl⟩

theorem idle_dropRequests (s : Session) : s.dropRequests.Idle := by
  rw [dropRequests_eq]
  exact ⟨rfl, rfl⟩

theorem Idle.complete (h : s.Idle) (k : Key) : (s.complete k).2.Idle := by
  unfold Session.complete
  split
  · dsimp only
    split <;> exact ⟨h.1, h.2⟩
  · exact h

/-- Without exchanges and requests no identifier is held. -/
theorem WF.ids_eq_empty (hs : s.WF) (hi : s.Idle) (hl : s.ledger.toList = []) : s.ids = .empty := by
  refine hs.ids.ext IdPool.wf_empty fun id => ?_
  rw [IdPool.isHeld_empty, ← Bool.not_eq_true, hs.isHeld_iff]
  rintro ⟨u, hu⟩
  cases u <;> simp [uses, Ledger.keys, hl, hi.1, hi.2] at hu

/-- A session without exchanges and requests has nothing to forget. -/
theorem WF.purge_of_isEmpty (hs : s.WF) (hi : s.Idle) (h : s.isEmpty) :
    s.ledger.keys = [] ∧ s.purge.2 = { s with endedAt := none } := by
  have hl : s.ledger.toList = [] := by
    rw [isEmpty, Bool.and_eq_true] at h
    exact Ledger.isEmpty_iff.1 h.1
  refine ⟨by rw [Ledger.keys, hl, List.map_nil], ?_⟩
  have hids := hs.ids_eq_empty hi hl
  have hclear := hs.ledger.clear_eq hl
  obtain ⟨l, ids, sub, unsub, x, a⟩ := s
  obtain ⟨hsub, hunsub⟩ := hi
  simp only [purge] at *
  rw [hclear, hids, hsub, hunsub]

end Session

namespace Client

/-- Requests wait for an answer only while there is a connection. -/
structure WF (c : Client) : Prop where
  session : c.session.WF
  idle : c.isConnected = false → c.session.Idle

theorem wf_new (options : ClientOptions) : (new options).WF :=
  ⟨Session.wf_empty, fun _ => Session.idle_empty⟩

end Client

end Mqtt
