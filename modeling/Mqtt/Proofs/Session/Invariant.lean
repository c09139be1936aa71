import Mqtt.Proofs.Session.Exchange
import Mqtt.Proofs.Session.IdPool
import Mqtt.Proofs.Session.Ledger
import Mqtt.Session.Basic

/-!
# The invariant of a session

An identifier is held for exactly one of three uses: an outbound exchange, a SUBSCRIBE or an
UNSUBSCRIBE that waits for its answer. `Session.WF` says so, next to the well-formedness of the
ledger and of the pool, and that each exchange passes its check. It holds of a new session and is
kept by every operation of a session; each lemma covers one way in which a ledger, a pool and the
requests change together.
-/

namespace Mqtt

namespace Session

/-- What an identifier is held for. -/
inductive Use
  | publish
  | subscribe
  | unsubscribe

/-- Whether an identifier is in use. -/
def uses (s : Session) : Use → UInt16 → Prop
  | .publish, id => .outbound id ∈ s.ledger.keys
  | .subscribe, id => id ∈ s.subscribes
  | .unsubscribe, id => id ∈ s.unsubscribes

/-- An identifier is held when it is in use, and for one use only. -/
structure WF (s : Session) : Prop where
  ledger : s.ledger.WF
  ids : s.ids.WF
  isHeld_iff : ∀ id, s.ids.isHeld id ↔ ∃ u, s.uses u id
  use_unique : ∀ {u v : Use} {id : UInt16}, s.uses u id → s.uses v id → u = v
  /-- An exchange is what an exchange can be. -/
  checks : ∀ e ∈ s.ledger.toList, e.check = .ok ()

theorem wf_empty : empty.WF where
  ledger := Ledger.wf_empty
  ids := IdPool.wf_empty
  isHeld_iff id := by
    rw [show empty.ids = IdPool.empty from rfl, IdPool.isHeld_empty]
    simp only [Bool.false_eq_true, false_iff, not_exists]
    intro u
    cases u <;> simp [uses, empty, Ledger.keys]
  use_unique {u v id} h := by
    cases u <;> simp [uses, empty, Ledger.keys] at h
  checks := by simp [empty]

variable {s t : Session}

/-- An identifier stays in the use that it has. -/
theorem WF.of_uses_iff (hs : s.WF) (hi : t.ids = s.ids) (huse : ∀ u id, t.uses u id ↔ s.uses u id)
    (hl : t.ledger.WF) (hc : ∀ e ∈ t.ledger.toList, e.check = .ok ()) : t.WF where
  ledger := hl
  ids := by
    rw [hi]
    exact hs.ids
  checks := hc
  isHeld_iff id := by
    rw [hi, hs.isHeld_iff]
    simp only [huse]
  use_unique hu hv := hs.use_unique ((huse _ _).1 hu) ((huse _ _).1 hv)

/-- Times and expiry play no part in the invariant. -/
theorem WF.of_eq (hs : s.WF) (hl : t.ledger = s.ledger) (hi : t.ids = s.ids)
    (hsub : t.subscribes = s.subscribes) (hunsub : t.unsubscribes = s.unsubscribes) : t.WF := by
  have huse : ∀ u id, t.uses u id ↔ s.uses u id := fun u id => by
    cases u <;> simp [uses, hl, hsub, hunsub]
  refine hs.of_uses_iff hi huse ?_ ?_ <;> rw [hl]
  · exact hs.ledger
  · exact hs.checks

/-! ## Identifiers that come into use and go out of it -/

/-- An identifier is handed out for a use. -/
theorem WF.hand (hs : s.WF) {id : UInt16} (use : Use) (hids : IdPool.Hands s.ids id t.ids)
    (huse : ∀ u j, t.uses u j ↔ s.uses u j ∨ u = use ∧ j = id) (hl : t.ledger.WF)
    (hc : ∀ e ∈ t.ledger.toList, e.check = .ok ()) : t.WF where
  ledger := hl
  ids := hids.wf
  checks := hc
  isHeld_iff j := by
    rw [hids.isHeld, hs.isHeld_iff]
    simp only [huse]
    constructor
    · rintro (⟨u, hu⟩ | hj)
      · exact ⟨u, .inl hu⟩
      · exact ⟨use, .inr ⟨rfl, hj⟩⟩
    · rintro ⟨u, hu | ⟨-, hj⟩⟩
      · exact .inl ⟨u, hu⟩
      · exact .inr hj
  use_unique {u v j} hu hv := by
    -- the identifier was not held, so it had no use before
    have hfree : ∀ w, ¬s.uses w id := fun w hw => by
      have := (hs.isHeld_iff id).2 ⟨w, hw⟩
      rw [hids.fresh] at this
      cases this
    rw [huse] at hu hv
    rcases hu with hu | ⟨rfl, rfl⟩ <;> rcases hv with hv | ⟨rfl, hj⟩
    · exact hs.use_unique hu hv
    · exact absurd (hj ▸ hu) (hfree u)
    · exact absurd hv (hfree v)
    · rfl

/-- An identifier goes out of use and is taken back. -/
theorem WF.takeBack (hs : s.WF) {id : UInt16} {use : Use} (hid : s.uses use id)
    (hids : IdPool.TakesBack s.ids id t.ids)
    (huse : ∀ u j, t.uses u j ↔ s.uses u j ∧ ¬(u = use ∧ j = id)) (hl : t.ledger.WF)
    (hc : ∀ e ∈ t.ledger.toList, e.check = .ok ()) : t.WF where
  ledger := hl
  ids := hids.wf
  checks := hc
  isHeld_iff j := by
    rw [hids.isHeld, hs.isHeld_iff]
    simp only [huse]
    constructor
    · rintro ⟨⟨u, hu⟩, hj⟩
      exact ⟨u, hu, fun h => hj h.2⟩
    · rintro ⟨u, hu, hn⟩
      refine ⟨⟨u, hu⟩, fun hj => hn ⟨?_, hj⟩⟩
      exact hs.use_unique hu (hj ▸ hid)
  use_unique hu hv := hs.use_unique ((huse _ _).1 hu).1 ((huse _ _).1 hv).1

theorem WF.isHeld (hs : s.WF) {id : UInt16} {use : Use} (hid : s.uses use id) : s.ids.isHeld id :=
  (hs.isHeld_iff id).2 ⟨use, hid⟩

/-- An identifier that is not held belongs to no published message. -/
theorem WF.not_mem_keys (hs : s.WF) {id : UInt16} (h : s.ids.isHeld id = false) :
    Key.outbound id ∉ s.ledger.keys := by
  intro hk
  have hheld := (hs.isHeld_iff id).2 ⟨.publish, hk⟩
  rw [h] at hheld
  cases hheld

/-- The keys of the exchanges do not change, nor do the identifiers and requests. -/
theorem WF.of_keys_eq (hs : s.WF) {l : Ledger} (hl : l.WF) (hkeys : l.keys = s.ledger.keys)
    (hc : ∀ e ∈ l.toList, e.check = .ok ()) : { s with ledger := l }.WF := by
  refine hs.of_uses_iff rfl (fun u id => ?_) hl hc
  cases u <;> simp [uses, hkeys]

/-! ## Exchanges -/

section Exchanges

variable {l : Ledger} {e e' : Exchange}

theorem WF.checks_started (hs : s.WF) (hl : Ledger.Started s.ledger e l) (hc : e.check = .ok ()) :
    ∀ x ∈ l.toList, x.check = .ok () := by
  intro x hx
  rw [hl.toList, List.mem_append, List.mem_singleton] at hx
  rcases hx with hx | rfl
  · exact hs.checks x hx
  · exact hc

theorem WF.start_outbound (hs : s.WF) {id : UInt16} {ids : IdPool}
    (hids : IdPool.Hands s.ids id ids) (hl : Ledger.Started s.ledger e l)
    (hk : e.key = .outbound id) (hc : e.check = .ok ()) :
    { s with ids, ledger := l }.WF := by
  refine hs.hand .publish hids (fun u j => ?_) hl.wf (hs.checks_started hl hc)
  cases u <;> simp [uses, hl.keys, hk, Key.outbound]

theorem WF.start_inbound (hs : s.WF) (hl : Ledger.Started s.ledger e l)
    (hd : e.direction = .inbound) (hc : e.check = .ok ()) : { s with ledger := l }.WF := by
  refine hs.of_uses_iff rfl (fun u j => ?_) hl.wf (hs.checks_started hl hc)
  cases u <;> simp [uses, hl.keys, Key.outbound, Exchange.key, hd]

theorem WF.move (hs : s.WF) (hl : Ledger.Moved s.ledger e e' l) (hc : e'.check = .ok ()) :
    { s with ledger := l }.WF := by
  refine hs.of_keys_eq hl.wf hl.keys fun x hx => ?_
  rw [hl.toList, List.mem_map] at hx
  obtain ⟨y, hy, rfl⟩ := hx
  split
  · exact hc
  · exact hs.checks y hy

theorem mem_keys_erase (hl : l.WF) {j k : Key} : j ∈ (l.erase k).keys ↔ j ∈ l.keys ∧ j ≠ k := by
  simp only [Ledger.mem_keys, Ledger.toList_erase hl, List.mem_filter, decide_eq_true_eq]
  constructor
  · rintro ⟨x, ⟨hx, hne⟩, rfl⟩
    exact ⟨⟨x, hx, rfl⟩, hne⟩
  · rintro ⟨⟨x, hx, rfl⟩, hne⟩
    exact ⟨x, ⟨hx, hne⟩, rfl⟩

theorem WF.checks_erase (hs : s.WF) (k : Key) :
    ∀ e ∈ (s.ledger.erase k).toList, e.check = .ok () := by
  intro e he
  rw [Ledger.toList_erase hs.ledger] at he
  exact hs.checks e (List.mem_filter.1 he).1

/-- What ending an exchange does to a session. -/
@[simp] theorem expiry_complete (s : Session) (k : Key) : (s.complete k).2.expiry = s.expiry := by
  unfold complete
  split
  · dsimp only
    split <;> rfl
  · rfl

@[simp] theorem endedAt_complete (s : Session) (k : Key) :
    (s.complete k).2.endedAt = s.endedAt := by
  unfold complete
  split
  · dsimp only
    split <;> rfl
  · rfl

theorem WF.complete_eq (hs : s.WF) (k : Key) :
    s.complete k = if k ∈ s.ledger.keys then
      (some (.erase k), { s with
        ledger := s.ledger.erase k
        ids := if k.direction = .outbound then s.ids.discard k.id else s.ids })
    else (none, s) := by
  rw [complete]
  by_cases hk : k ∈ s.ledger.keys
  · simp only [hs.ledger.contains_iff.2 hk, hk, ↓reduceIte]
    split <;> rfl
  · simp [hs.ledger.contains_eq_false_iff.2 hk, hk]

theorem WF.complete (hs : s.WF) (k : Key) : (s.complete k).2.WF := by
  rw [hs.complete_eq]
  split
  · rename_i hk
    obtain ⟨id, d⟩ := k
    cases d with
    | outbound =>
      have hid : s.uses .publish id := hk
      refine hs.takeBack hid (IdPool.takesBack_discard hs.ids (hs.isHeld hid)) (fun u j => ?_)
        (Ledger.wf_erase hs.ledger _) (hs.checks_erase _)
      cases u <;> simp [uses, mem_keys_erase hs.ledger, Key.outbound]
    | inbound =>
      refine hs.of_uses_iff rfl (fun u j => ?_) (Ledger.wf_erase hs.ledger _) (hs.checks_erase _)
      cases u <;> simp [uses, mem_keys_erase hs.ledger, Key.outbound]
  · exact hs

theorem wf_purge (s : Session) : s.purge.2.WF := by
  have hu : ∀ u j, ¬s.purge.2.uses u j := by
    intro u j
    cases u <;> simp [uses, purge, Ledger.keys]
  refine ⟨Ledger.wf_clear _, IdPool.wf_empty, fun id => ?_, fun h => absurd h (hu _ _), ?_⟩
  · simp only [hu, exists_false, iff_false, Bool.not_eq_true]
    exact IdPool.isHeld_empty id
  · simp [purge]

end Exchanges

/-! ## Requests -/

theorem WF.trackSubscribe (hs : s.WF) {id : UInt16} {ids : IdPool} (p : PendingSubscribe)
    (hids : IdPool.Hands s.ids id ids) : ({ s with ids }.trackSubscribe id p).WF := by
  refine hs.hand .subscribe hids (fun u j => ?_) hs.ledger hs.checks
  cases u <;> simp [uses, Session.trackSubscribe, Std.ExtTreeMap.mem_insert, @eq_comm _ j, or_comm]

theorem WF.trackUnsubscribe (hs : s.WF) {id : UInt16} {ids : IdPool} (p : PendingUnsubscribe)
    (hids : IdPool.Hands s.ids id ids) : ({ s with ids }.trackUnsubscribe id p).WF := by
  refine hs.hand .unsubscribe hids (fun u j => ?_) hs.ledger hs.checks
  cases u <;>
    simp [uses, Session.trackUnsubscribe, Std.ExtTreeMap.mem_insert, @eq_comm _ j, or_comm]

theorem isSome_completeSubscribe {id : UInt16} :
    (s.completeSubscribe id).1.isSome ↔ id ∈ s.subscribes := by
  rw [Std.ExtTreeMap.mem_iff_isSome_getElem?, Session.completeSubscribe]
  cases s.subscribes[id]? <;> simp

theorem completeSubscribe_of_not_mem {id : UInt16} (h : id ∉ s.subscribes) :
    s.completeSubscribe id = (none, s) := by
  rw [Session.completeSubscribe, Std.ExtTreeMap.getElem?_eq_none h]

theorem isSome_completeUnsubscribe {id : UInt16} :
    (s.completeUnsubscribe id).1.isSome ↔ id ∈ s.unsubscribes := by
  rw [Std.ExtTreeMap.mem_iff_isSome_getElem?, Session.completeUnsubscribe]
  cases s.unsubscribes[id]? <;> simp

theorem completeUnsubscribe_of_not_mem {id : UInt16} (h : id ∉ s.unsubscribes) :
    s.completeUnsubscribe id = (none, s) := by
  rw [Session.completeUnsubscribe, Std.ExtTreeMap.getElem?_eq_none h]

@[simp] theorem ledger_completeSubscribe (s : Session) (id : UInt16) :
    (s.completeSubscribe id).2.ledger = s.ledger := by
  rw [Session.completeSubscribe]
  cases s.subscribes[id]? <;> rfl

@[simp] theorem ledger_completeUnsubscribe (s : Session) (id : UInt16) :
    (s.completeUnsubscribe id).2.ledger = s.ledger := by
  rw [Session.completeUnsubscribe]
  cases s.unsubscribes[id]? <;> rfl

@[simp] theorem expiry_completeSubscribe (s : Session) (id : UInt16) :
    (s.completeSubscribe id).2.expiry = s.expiry := by
  rw [Session.completeSubscribe]
  cases s.subscribes[id]? <;> rfl

@[simp] theorem expiry_completeUnsubscribe (s : Session) (id : UInt16) :
    (s.completeUnsubscribe id).2.expiry = s.expiry := by
  rw [Session.completeUnsubscribe]
  cases s.unsubscribes[id]? <;> rfl

@[simp] theorem endedAt_completeSubscribe (s : Session) (id : UInt16) :
    (s.completeSubscribe id).2.endedAt = s.endedAt := by
  rw [Session.completeSubscribe]
  cases s.subscribes[id]? <;> rfl

@[simp] theorem endedAt_completeUnsubscribe (s : Session) (id : UInt16) :
    (s.completeUnsubscribe id).2.endedAt = s.endedAt := by
  rw [Session.completeUnsubscribe]
  cases s.unsubscribes[id]? <;> rfl

theorem WF.completeSubscribe (hs : s.WF) (id : UInt16) : (s.completeSubscribe id).2.WF := by
  unfold Session.completeSubscribe
  split
  · exact hs
  · rename_i p hp
    have hid : s.uses .subscribe id := by
      simp [uses, Std.ExtTreeMap.mem_iff_isSome_getElem?, hp]
    refine hs.takeBack hid (IdPool.takesBack_discard hs.ids (hs.isHeld hid)) (fun u j => ?_)
      hs.ledger hs.checks
    cases u <;> simp [uses, discard, @eq_comm _ j, and_comm]

theorem WF.completeUnsubscribe (hs : s.WF) (id : UInt16) : (s.completeUnsubscribe id).2.WF := by
  unfold Session.completeUnsubscribe
  split
  · exact hs
  · rename_i p hp
    have hid : s.uses .unsubscribe id := by
      simp [uses, Std.ExtTreeMap.mem_iff_isSome_getElem?, hp]
    refine hs.takeBack hid (IdPool.takesBack_discard hs.ids (hs.isHeld hid)) (fun u j => ?_)
      hs.ledger hs.checks
    cases u <;> simp [uses, discard, @eq_comm _ j, and_comm]

/-- The identifiers of the pending requests. -/
def requestIds (s : Session) : List UInt16 := s.subscribes.keys ++ s.unsubscribes.keys

theorem mem_requestIds {id : UInt16} :
    id ∈ s.requestIds ↔ s.uses .subscribe id ∨ s.uses .unsubscribe id := by
  simp [requestIds, uses]

theorem WF.nodup_requestIds (hs : s.WF) : s.requestIds.Nodup := by
  refine List.nodup_append.2 ⟨s.subscribes.nodup_keys, s.unsubscribes.nodup_keys, ?_⟩
  rintro a ha b hb rfl
  have hsub : s.uses .subscribe a := by simpa [uses] using ha
  have hunsub : s.uses .unsubscribe a := by simpa [uses] using hb
  cases hs.use_unique hsub hunsub

theorem foldl_discard (ids : List UInt16) (s : Session) :
    ids.foldl discard s = { s with ids := ids.foldl IdPool.discard s.ids } := by
  induction ids generalizing s with
  | nil => rfl
  | cons id ids ih => rw [List.foldl_cons, ih]; rfl

theorem dropRequests_eq (s : Session) :
    s.dropRequests = { s with
      ids := s.requestIds.foldl IdPool.discard s.ids, subscribes := ∅, unsubscribes := ∅ } := by
  rw [dropRequests, foldl_discard]
  rfl

@[simp] theorem ledger_dropRequests (s : Session) : s.dropRequests.ledger = s.ledger := by
  rw [dropRequests_eq]

@[simp] theorem expiry_dropRequests (s : Session) : s.dropRequests.expiry = s.expiry := by
  rw [dropRequests_eq]

theorem WF.dropRequests (hs : s.WF) : s.dropRequests.WF := by
  obtain ⟨q, -, hd, hw, hi⟩ := IdPool.release_all hs.ids hs.nodup_requestIds fun id hid =>
    (mem_requestIds.1 hid).elim hs.isHeld hs.isHeld
  rw [dropRequests_eq, hd]
  have hpub : ∀ {u : Use} {id : UInt16},
      uses { s with ids := q, subscribes := ∅, unsubscribes := ∅ } u id → u = .publish := by
    intro u id h
    cases u <;> simp_all [uses]
  refine ⟨hs.ledger, hw, fun id => ?_, fun hu hv => (hpub hu).trans (hpub hv).symm, hs.checks⟩
  rw [hi, hs.isHeld_iff, mem_requestIds]
  constructor
  · rintro ⟨⟨u, hu⟩, hn⟩
    cases u with
    | publish => exact ⟨.publish, hu⟩
    | subscribe => exact absurd (.inl hu) hn
    | unsubscribe => exact absurd (.inr hu) hn
  · rintro ⟨u, hu⟩
    obtain rfl := hpub hu
    have hu' : s.uses .publish id := hu
    refine ⟨⟨_, hu'⟩, ?_⟩
    rintro (h | h) <;> cases hs.use_unique hu' h

end Session

end Mqtt
