import Mathlib
import Mqtt.Proofs.Session.IdPool

/-!
# The lowest free identifier

A caller keeps account of a pool by what its calls return: an identifier that was handed out is
held, one that was taken back is not. Over every history of calls that account is exact, and with
it alone everything that a call returns is known (`lowestFree_after`): `acquire` hands out the
least identifier that is not held, and the pool itself depends on the account and not on the order
of the calls.
-/

namespace Mqtt

namespace IdPool

/-- A call to a pool. -/
inductive Call
  | acquire
  | acquireSpecific (id : UInt16)
  | release (id : UInt16)
  | clear

namespace Call

/-- What a call returns, with the identifier that `acquire` chose, and the pool that it leaves. -/
def run (p : IdPool) : Call → Except Error (Option UInt16) × IdPool
  | acquire =>
    match p.acquire with
    | .ok (id, q) => (.ok (some id), q)
    | .error e => (.error e, p)
  | acquireSpecific id =>
    match p.acquireSpecific id with
    | .ok q => (.ok none, q)
    | .error e => (.error e, p)
  | release id =>
    match p.release id with
    | .ok q => (.ok none, q)
    | .error e => (.error e, p)
  | clear => (.ok none, empty)

/-- The identifiers that are held after a call, by what it returned. -/
def account (H : Finset UInt16) : Call → Except Error (Option UInt16) → Finset UInt16
  | acquire, .ok (some id) => insert id H
  | acquireSpecific id, .ok _ => insert id H
  | release id, .ok _ => H.erase id
  | clear, .ok _ => ∅
  | _, _ => H

/-- The account and the pool after one more call. -/
def next (s : Finset UInt16 × IdPool) (c : Call) : Finset UInt16 × IdPool :=
  (c.account s.1 (c.run s.2).1, (c.run s.2).2)

/-- The account and the pool after a history of calls to a new pool. -/
def after (cs : List Call) : Finset UInt16 × IdPool := cs.foldl next (∅, empty)

end Call

/-- The identifiers of `H` are those that the pool holds. -/
structure Holds (H : Finset UInt16) (p : IdPool) : Prop where
  wf : p.WF
  isHeld : ∀ id, p.isHeld id ↔ id ∈ H

/-- What a pool returns to its callers and what it is made of, where `H` is held. -/
structure LowestFree (H : Finset UInt16) (p : IdPool) : Prop where
  acquire : (∃ id, IsLeast {j | j ≠ 0 ∧ j ∉ H} id ∧ (Call.acquire.run p).1 = .ok (some id)) ∨
    (∀ j, j ≠ 0 → j ∈ H) ∧ (Call.acquire.run p).1 = .error .identifiersExhausted
  acquireSpecific : ∀ id, ((Call.acquireSpecific id).run p).1 =
    if id = 0 then .error .zeroIdentifier
    else if id ∈ H then .error (.identifierInUse id) else .ok none
  release : ∀ id, ((Call.release id).run p).1 =
    if id ∈ H then .ok none else .error (.identifierNotFound id)
  failed : ∀ c e, (Call.run p c).1 = .error e → (Call.run p c).2 = p
  isHeld : ∀ id, p.isHeld id ↔ id ∈ H
  size_gaps_le : p.gaps.size ≤ p.top
  size : p.size = H.card
  top : p.top = H.sup UInt16.toNat
  gaps : ∀ g, g ∈ p.gaps ↔ g ≠ 0 ∧ g.toNat ≤ p.top ∧ g ∉ H

theorem holds_empty : Holds ∅ empty := ⟨wf_empty, by simp⟩

theorem isHeld_of_release {p q : IdPool} {id : UInt16} (h : p.release id = .ok q) :
    p.isHeld id := by
  unfold IdPool.release at h
  split at h
  · assumption
  · cases h

section

variable {H : Finset UInt16} {p q : IdPool}

theorem Holds.hands (h : Holds H p) {id : UInt16} (hq : Hands p id q) : Holds (insert id H) q where
  wf := hq.wf
  isHeld j := by rw [hq.isHeld, h.isHeld, Finset.mem_insert, or_comm]

theorem Holds.takesBack (h : Holds H p) {id : UInt16} (hq : TakesBack p id q) :
    Holds (H.erase id) q where
  wf := hq.wf
  isHeld j := by rw [hq.isHeld, h.isHeld, Finset.mem_erase, and_comm]

/-- Each call keeps the account exact. -/
theorem Holds.next (h : Holds H p) (c : Call) : Holds (c.next (H, p)).1 (c.next (H, p)).2 := by
  cases c with
  | acquire =>
    simp only [Call.next, Call.run]
    split
    · exact h.hands (hands_of_acquire h.wf ‹_›)
    · exact h
  | acquireSpecific id =>
    simp only [Call.next, Call.run]
    split
    · exact h.hands (hands_of_acquireSpecific h.wf ‹_›)
    · exact h
  | release id =>
    simp only [Call.next, Call.run]
    split
    · rename_i q hq
      obtain ⟨q', hq', ht⟩ := release_eq_ok h.wf (isHeld_of_release hq)
      obtain rfl : q' = q := by
        rw [hq] at hq'
        cases hq'
        rfl
      exact h.takesBack ht
    · exact h
  | clear => exact holds_empty

/-- The account is exact after every history of calls. -/
theorem holds_after (cs : List Call) : Holds (Call.after cs).1 (Call.after cs).2 := by
  suffices ∀ s : Finset UInt16 × IdPool, Holds s.1 s.2 →
      Holds (cs.foldl Call.next s).1 (cs.foldl Call.next s).2 from this (∅, empty) holds_empty
  induction cs with
  | nil => exact fun _ h => h
  | cons c cs ih => exact fun s h => ih _ (h.next c)

/-! ## What the calls return -/

theorem Holds.mem_gaps_iff (h : Holds H p) {g : UInt16} :
    g ∈ p.gaps ↔ g ≠ 0 ∧ g.toNat ≤ p.top ∧ g ∉ H := by
  rw [h.wf.mem_gaps_iff, ← Bool.not_eq_true, h.isHeld]

/-- An identifier that is free is a gap or lies above the greatest held one. -/
theorem Holds.free_iff (h : Holds H p) {j : UInt16} :
    j ≠ 0 ∧ j ∉ H ↔ j ∈ p.gaps ∨ p.top < j.toNat := by
  rw [← h.isHeld, isHeld_iff, ← toNat_pos_iff]
  by_cases hj : j ∈ p.gaps
  · have := toNat_pos_iff.2 (h.wf.gap_ne_zero j hj)
    simp [hj, this]
  · simp only [hj, not_false_eq_true, and_true, false_or]
    omega

theorem Holds.run_acquire (h : Holds H p) :
    (∃ id, IsLeast {j | j ≠ 0 ∧ j ∉ H} id ∧ (Call.acquire.run p).1 = .ok (some id)) ∨
      (∀ j, j ≠ 0 → j ∈ H) ∧ (Call.acquire.run p).1 = .error .identifiersExhausted := by
  cases hm : p.gaps.min? with
  | some id =>
    obtain ⟨hid, hle⟩ := Std.ExtTreeSet.min?_eq_some_iff_mem_and_forall.1 hm
    refine .inl ⟨id, ⟨h.free_iff.2 (.inl hid), fun j hj => ?_⟩,
      by simp [Call.run, IdPool.acquire, hm]⟩
    rcases h.free_iff.1 hj with hj | hj
    · exact Std.isLE_compare.1 (hle j hj)
    · exact UInt16.le_iff_toNat_le.2 (by have := h.wf.gap_lt id hid; omega)
  | none =>
    have hgaps : ∀ j, j ∉ p.gaps := by
      rw [Std.ExtTreeSet.min?_eq_none_iff] at hm
      simp [hm]
    by_cases ht : p.top < 65535
    · have hn : (UInt16.ofNat (p.top + 1)).toNat = p.top + 1 := toNat_ofNat (by omega)
      refine .inl ⟨UInt16.ofNat (p.top + 1), ⟨h.free_iff.2 (.inr (by omega)), fun j hj => ?_⟩,
        by simp [Call.run, IdPool.acquire, hm, ht]⟩
      have := (h.free_iff.1 hj).resolve_left (hgaps j)
      exact UInt16.le_iff_toNat_le.2 (by omega)
    · refine .inr ⟨fun j hj => ?_, by simp [Call.run, IdPool.acquire, hm, ht]⟩
      by_contra hn
      have := (h.free_iff.1 ⟨hj, hn⟩).resolve_left (hgaps j)
      have := j.toNat_lt
      omega

theorem Holds.run_acquireSpecific (h : Holds H p) (id : UInt16) :
    ((Call.acquireSpecific id).run p).1 =
      if id = 0 then .error .zeroIdentifier
      else if id ∈ H then .error (.identifierInUse id) else .ok none := by
  by_cases h0 : id = 0
  · simp [Call.run, IdPool.acquireSpecific, h0]
  rw [if_neg h0]
  by_cases hH : id ∈ H
  · obtain ⟨-, hle, hg⟩ := isHeld_iff.1 ((h.isHeld id).2 hH)
    simp [Call.run, IdPool.acquireSpecific, h0, hH, Nat.not_lt.2 hle, hg]
  · obtain ⟨q, hq⟩ := acquireSpecific_eq_ok h0 (by rwa [← Bool.not_eq_true, h.isHeld])
    simp [Call.run, hq, hH]

theorem Holds.run_release (h : Holds H p) (id : UInt16) :
    ((Call.release id).run p).1 =
      if id ∈ H then .ok none else .error (.identifierNotFound id) := by
  by_cases hH : id ∈ H
  · obtain ⟨q, hq, -⟩ := release_eq_ok h.wf ((h.isHeld id).2 hH)
    simp [Call.run, hq, hH]
  · simp [Call.run, IdPool.release, h.isHeld, hH]

theorem Call.run_of_error {c : Call} {e : Error} (h : (c.run p).1 = .error e) :
    (c.run p).2 = p := by
  cases c <;> simp only [Call.run] at h ⊢
  case clear => cases h
  all_goals split at h <;> simp_all

/-! ## What the pool is made of -/

theorem nodup_gaps (p : IdPool) : p.gaps.toList.Nodup :=
  p.gaps.distinct_toList.imp fun hne heq => hne (by simp [heq])

/-- The identifiers up to the greatest held one are the held ones and the gaps. -/
theorem Holds.size_add_gaps (h : Holds H p) : H.card + p.gaps.size = p.top := by
  have hgaps : p.gaps.toList.toFinset.card = p.gaps.size := by
    rw [List.toFinset_card_of_nodup p.nodup_gaps, Std.ExtTreeSet.length_toList]
  have hdisj : Disjoint H p.gaps.toList.toFinset := by
    rw [Finset.disjoint_left]
    intro j hj hg
    rw [List.mem_toFinset, Std.ExtTreeSet.mem_toList, h.mem_gaps_iff] at hg
    exact hg.2.2 hj
  have hunion : (H ∪ p.gaps.toList.toFinset).image UInt16.toNat = Finset.Icc 1 p.top := by
    ext n
    simp only [Finset.mem_image, Finset.mem_union, List.mem_toFinset, Std.ExtTreeSet.mem_toList,
      Finset.mem_Icc]
    constructor
    · rintro ⟨j, hj | hj, rfl⟩
      · obtain ⟨h0, hle, -⟩ := isHeld_iff.1 ((h.isHeld j).2 hj)
        exact ⟨toNat_pos_iff.2 h0, hle⟩
      · obtain ⟨h0, hle, -⟩ := h.mem_gaps_iff.1 hj
        exact ⟨toNat_pos_iff.2 h0, hle⟩
    · rintro ⟨h1, hle⟩
      have hn : (UInt16.ofNat n).toNat = n := toNat_ofNat (hle.trans h.wf.top_le)
      refine ⟨UInt16.ofNat n, ?_, hn⟩
      rw [h.mem_gaps_iff, ← toNat_pos_iff, hn]
      by_cases hH : UInt16.ofNat n ∈ H
      · exact .inl hH
      · exact .inr ⟨h1, hle, hH⟩
  calc H.card + p.gaps.size
      = (H ∪ p.gaps.toList.toFinset).card := by rw [Finset.card_union_of_disjoint hdisj, hgaps]
    _ = ((H ∪ p.gaps.toList.toFinset).image UInt16.toNat).card :=
        (Finset.card_image_of_injective _ fun _ _ => UInt16.toNat_inj.1).symm
    _ = p.top := by rw [hunion, Nat.card_Icc, Nat.add_sub_cancel]

theorem Holds.top_eq_sup (h : Holds H p) : p.top = H.sup UInt16.toNat := by
  refine Nat.le_antisymm ?_ (Finset.sup_le fun j hj => (isHeld_iff.1 ((h.isHeld j).2 hj)).2.1)
  rcases Nat.eq_zero_or_pos p.top with hz | hz
  · omega
  · rw [← toNat_ofNat h.wf.top_le]
    exact Finset.le_sup ((h.isHeld _).1 (h.wf.isHeld_top hz))

theorem Holds.lowestFree (h : Holds H p) : LowestFree H p where
  acquire := h.run_acquire
  acquireSpecific := h.run_acquireSpecific
  release := h.run_release
  failed _ _ := Call.run_of_error
  isHeld := h.isHeld
  size_gaps_le := by rw [← h.size_add_gaps]; exact Nat.le_add_left _ _
  size := by rw [IdPool.size, ← h.size_add_gaps, Nat.add_sub_cancel]
  top := h.top_eq_sup
  gaps _ := h.mem_gaps_iff

end

/-- After every history of calls a pool hands out the least identifier that is not held, and any
other history that holds the same identifiers leaves the same pool. -/
theorem lowestFree_after (cs : List Call) :
    LowestFree (Call.after cs).1 (Call.after cs).2 ∧
      ∀ ds, (Call.after ds).1 = (Call.after cs).1 → (Call.after ds).2 = (Call.after cs).2 := by
  refine ⟨(holds_after cs).lowestFree, fun ds hds => ?_⟩
  refine (holds_after ds).wf.ext (holds_after cs).wf fun id => ?_
  rw [Bool.eq_iff_iff, (holds_after ds).isHeld, (holds_after cs).isHeld, hds]

/-- Taking back the first and the last of three identifiers leaves the pool in which the second was
chosen. -/
theorem lowestFree_after_two :
    (Call.after [.acquireSpecific 2]).1 =
        (Call.after [.acquire, .acquire, .acquire, .release 3, .release 1]).1 ∧
      (Call.after [.acquireSpecific 2]).2 =
        (Call.after [.acquire, .acquire, .acquire, .release 3, .release 1]).2 := by
  have h : (Call.after [.acquireSpecific 2]).1 =
      (Call.after [.acquire, .acquire, .acquire, .release 3, .release 1]).1 := by cbv
  exact ⟨h, (lowestFree_after _).2 _ h⟩

end IdPool

end Mqtt
