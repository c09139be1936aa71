import Mathlib.Order.Basic
import Mqtt.Proofs.Success
import Mqtt.Session.IdPool

/-!
# The held identifiers of a pool

A pool is read through the identifiers that it holds: `Hands` and `TakesBack` say what becomes of
them when an identifier is handed out or taken back. In a well-formed pool every gap lies strictly
between zero and `top`, so the held identifiers determine the pool (`WF.ext`), and taking an
identifier back undoes handing it out (`Hands.release`).
-/

namespace Mqtt

namespace IdPool

/-- The gaps of a pool lie below its greatest held identifier. -/
structure WF (p : IdPool) : Prop where
  top_le : p.top ≤ 65535
  gap_ne_zero : ∀ g ∈ p.gaps, g ≠ 0
  gap_lt : ∀ g ∈ p.gaps, g.toNat < p.top

theorem isHeld_iff {p : IdPool} {id : UInt16} :
    p.isHeld id ↔ id ≠ 0 ∧ id.toNat ≤ p.top ∧ id ∉ p.gaps := by
  simp only [isHeld, ← Std.ExtTreeSet.contains_iff_mem, Bool.and_eq_true, decide_eq_true_eq,
    Bool.not_eq_true', Bool.not_eq_true, and_assoc]

theorem isHeld_eq_false_iff {p : IdPool} {id : UInt16} :
    p.isHeld id = false ↔ ¬(id ≠ 0 ∧ id.toNat ≤ p.top ∧ id ∉ p.gaps) := by
  rw [← isHeld_iff, Bool.not_eq_true]

theorem toNat_pos_iff {id : UInt16} : 0 < id.toNat ↔ id ≠ 0 := by
  rw [ne_eq, ← UInt16.toNat_inj, UInt16.toNat_zero]
  omega

theorem toNat_ofNat {n : Nat} (h : n ≤ 65535) : (UInt16.ofNat n).toNat = n :=
  UInt16.toNat_ofNat_of_lt' (Nat.lt_succ_of_le h)

theorem wf_empty : WF empty :=
  ⟨by simp [empty], by simp [empty], by simp [empty]⟩

@[simp] theorem isHeld_empty (id : UInt16) : empty.isHeld id = false := by
  rw [isHeld_eq_false_iff, ← toNat_pos_iff]
  simp only [empty]
  omega

theorem WF.isHeld_top {p : IdPool} (hp : p.WF) (h : 0 < p.top) : p.isHeld (UInt16.ofNat p.top) := by
  rw [isHeld_iff, ← toNat_pos_iff, toNat_ofNat hp.top_le]
  refine ⟨h, Nat.le_refl _, fun hg => ?_⟩
  have hlt := hp.gap_lt _ hg
  rw [toNat_ofNat hp.top_le] at hlt
  exact Nat.lt_irrefl _ hlt

theorem WF.top_le_of_isHeld {p q : IdPool} (hp : p.WF) (h : ∀ id, p.isHeld id → q.isHeld id) :
    p.top ≤ q.top := by
  rcases Nat.eq_zero_or_pos p.top with hz | hz
  · omega
  · have hq := (isHeld_iff.1 (h _ (hp.isHeld_top hz))).2.1
    rwa [toNat_ofNat hp.top_le] at hq

theorem WF.mem_gaps_iff {p : IdPool} (hp : p.WF) {g : UInt16} :
    g ∈ p.gaps ↔ g ≠ 0 ∧ g.toNat ≤ p.top ∧ p.isHeld g = false := by
  rw [isHeld_eq_false_iff]
  constructor
  · intro hg
    exact ⟨hp.gap_ne_zero g hg, Nat.le_of_lt (hp.gap_lt g hg), fun h => h.2.2 hg⟩
  · rintro ⟨h0, hle, hn⟩
    by_contra hg
    exact hn ⟨h0, hle, hg⟩

/-- The held identifiers determine a well-formed pool. -/
theorem WF.ext {p q : IdPool} (hp : p.WF) (hq : q.WF) (h : ∀ id, p.isHeld id = q.isHeld id) :
    p = q := by
  have htop : p.top = q.top :=
    Nat.le_antisymm (hp.top_le_of_isHeld fun id hid => h id ▸ hid)
      (hq.top_le_of_isHeld fun id hid => (h id).symm ▸ hid)
  have hgaps : p.gaps = q.gaps :=
    Std.ExtTreeSet.ext_mem fun g => by rw [hp.mem_gaps_iff, hq.mem_gaps_iff, htop, h]
  obtain ⟨ptop, pgaps⟩ := p
  obtain ⟨qtop, qgaps⟩ := q
  congr 1

/-! ## Handing out -/

/-- What handing out `id` does to a pool. -/
structure Hands (p : IdPool) (id : UInt16) (q : IdPool) : Prop where
  wf : q.WF
  ne_zero : id ≠ 0
  fresh : p.isHeld id = false
  isHeld : ∀ j, q.isHeld j ↔ p.isHeld j ∨ j = id

theorem hands_erase {p : IdPool} (hp : p.WF) {id : UInt16} (hid : id ∈ p.gaps) :
    Hands p id { p with gaps := p.gaps.erase id } where
  wf := ⟨hp.top_le, fun g hg => hp.gap_ne_zero g (Std.ExtTreeSet.mem_erase.1 hg).2,
    fun g hg => hp.gap_lt g (Std.ExtTreeSet.mem_erase.1 hg).2⟩
  ne_zero := hp.gap_ne_zero id hid
  fresh := by
    rw [isHeld_eq_false_iff]
    exact fun h => h.2.2 hid
  isHeld j := by
    have h0 := hp.gap_ne_zero id hid
    have hlt := hp.gap_lt id hid
    simp only [isHeld_iff, Std.ExtTreeSet.mem_erase]
    by_cases hj : j = id
    · subst hj
      simp [h0]
      omega
    · simp [hj, Ne.symm hj]

theorem mem_addRange {gaps : Std.ExtTreeSet UInt16} {first n : Nat} (hn : first + n ≤ 65536)
    {g : UInt16} :
    g ∈ addRange gaps first n ↔ g ∈ gaps ∨ first ≤ g.toNat ∧ g.toNat < first + n := by
  induction n generalizing gaps first with
  | zero =>
    rw [addRange, iff_self_or]
    omega
  | succ n ih =>
    have hf : UInt16.ofNat first = g ↔ first = g.toNat := by
      rw [← UInt16.toNat_inj, toNat_ofNat (by omega)]
    rw [addRange, ih (by omega), Std.ExtTreeSet.mem_insert, Std.LawfulEqCmp.compare_eq_iff_eq, hf]
    by_cases hg : g ∈ gaps
    · simp [hg]
    · simp only [hg, or_false, false_or]
      omega

/-- Handing out an identifier above the greatest held one leaves those between as gaps. -/
theorem hands_above {p : IdPool} (hp : p.WF) {id : UInt16} (hid : p.top < id.toNat) :
    Hands p id ⟨id.toNat, addRange p.gaps (p.top + 1) (id.toNat - p.top - 1)⟩ := by
  have hlt := id.toNat_lt
  have hmem : ∀ g, g ∈ addRange p.gaps (p.top + 1) (id.toNat - p.top - 1) ↔
      g ∈ p.gaps ∨ p.top < g.toNat ∧ g.toNat < id.toNat := by
    intro g
    rw [mem_addRange (by omega)]
    exact or_congr_right (by omega)
  have h0 : id ≠ 0 := toNat_pos_iff.1 (by omega)
  refine ⟨⟨by simp only; omega, fun g hg => ?_, fun g hg => ?_⟩, h0, ?_, fun j => ?_⟩
  · rcases (hmem g).1 hg with hg | hg
    · exact hp.gap_ne_zero g hg
    · exact toNat_pos_iff.1 (by omega)
  · rcases (hmem g).1 hg with hg | hg
    · exact Nat.lt_trans (hp.gap_lt g hg) hid
    · exact hg.2
  · rw [isHeld_eq_false_iff]
    omega
  · simp only [isHeld_iff, hmem]
    constructor
    · rintro ⟨hj, hle, hn⟩
      rcases Nat.lt_or_ge p.top j.toNat with hlt | hge
      · exact .inr (UInt16.toNat_inj.1 (by omega))
      · exact .inl ⟨hj, hge, fun hg => hn (.inl hg)⟩
    · rintro (⟨hj, hle, hn⟩ | rfl)
      · exact ⟨hj, by omega, fun hg => hg.elim hn (by omega)⟩
      · refine ⟨h0, Nat.le_refl _, fun hg => hg.elim (fun hg => ?_) (by omega)⟩
        have := hp.gap_lt _ hg
        omega

theorem hands_of_acquireSpecific {p q : IdPool} (hp : p.WF) {id : UInt16}
    (h : p.acquireSpecific id = .ok q) : Hands p id q := by
  unfold acquireSpecific at h
  split at h
  · cases h
  split at h
  · cases h
    exact hands_above hp ‹_›
  split at h
  · cases h
    exact hands_erase hp (Std.ExtTreeSet.contains_iff_mem.1 ‹_›)
  · cases h

theorem hands_of_acquire {p q : IdPool} (hp : p.WF) {id : UInt16}
    (h : p.acquire = .ok (id, q)) : Hands p id q := by
  unfold acquire at h
  split at h
  · cases h
    exact hands_erase hp (Std.ExtTreeSet.min?_mem ‹_›)
  split at h
  · -- handing out the identifier after the greatest leaves no gap
    rename_i hlt
    cases h
    have hn : (UInt16.ofNat (p.top + 1)).toNat = p.top + 1 := toNat_ofNat (by omega)
    have := hands_above hp (show p.top < (UInt16.ofNat (p.top + 1)).toNat by omega)
    rwa [hn, show p.top + 1 - p.top - 1 = 0 by omega, addRange] at this
  · cases h

theorem hands_of_claim {p q : IdPool} (hp : p.WF) {asked : Option UInt16} {id : UInt16}
    (h : p.claim asked = .ok (id, q)) : Hands p id q := by
  cases asked with
  | none => exact hands_of_acquire hp h
  | some a =>
    simp only [claim, Except.bind_eq_ok_iff, Except.pure_eq_ok_iff] at h
    obtain ⟨p', ha, h⟩ := h
    cases h
    exact hands_of_acquireSpecific hp ha

/-- A chosen identifier is refused only if it is zero or held. -/
theorem acquireSpecific_eq_ok {p : IdPool} {id : UInt16} (h0 : id ≠ 0) (h : p.isHeld id = false) :
    ∃ q, p.acquireSpecific id = .ok q := by
  unfold acquireSpecific
  rw [if_neg h0]
  split
  · exact ⟨_, rfl⟩
  · rw [if_pos]
    · exact ⟨_, rfl⟩
    · rw [isHeld_eq_false_iff] at h
      by_contra hg
      exact h ⟨h0, by omega, fun hm => hg (Std.ExtTreeSet.contains_iff_mem.2 hm)⟩

/-! ## Taking back -/

/-- What taking back `id` does to a pool. -/
structure TakesBack (p : IdPool) (id : UInt16) (q : IdPool) : Prop where
  wf : q.WF
  isHeld : ∀ j, q.isHeld j ↔ p.isHeld j ∧ j ≠ id

theorem settle_wf {gaps : Std.ExtTreeSet UInt16} {top : Nat} (htop : top ≤ 65535)
    (h0 : ∀ g : UInt16, g ∈ gaps → g ≠ 0) (hle : ∀ g : UInt16, g ∈ gaps → g.toNat ≤ top) :
    (settle gaps top).WF := by
  induction top generalizing gaps with
  | zero =>
    refine ⟨by simp [settle], h0, fun g hg => ?_⟩
    have hpos := toNat_pos_iff.2 (h0 g hg)
    have hzero := hle g hg
    omega
  | succ top ih =>
    have hn : (UInt16.ofNat (top + 1)).toNat = top + 1 := toNat_ofNat (by omega)
    simp only [settle]
    split
    · refine ih (by omega) (fun g hg => h0 g (Std.ExtTreeSet.mem_erase.1 hg).2) fun g hg => ?_
      obtain ⟨hne, hg⟩ := Std.ExtTreeSet.mem_erase.1 hg
      rw [Ne, Std.LawfulEqCmp.compare_eq_iff_eq, ← UInt16.toNat_inj, hn] at hne
      have := hle g hg
      omega
    · rename_i hc
      refine ⟨htop, h0, fun g hg => ?_⟩
      have : g.toNat ≠ top + 1 := by
        rw [← hn, ne_eq, UInt16.toNat_inj]
        rintro rfl
        exact hc (Std.ExtTreeSet.contains_iff_mem.2 hg)
      have := hle g hg
      simp only
      omega

theorem isHeld_settle {gaps : Std.ExtTreeSet UInt16} {top : Nat} (htop : top ≤ 65535) (j : UInt16) :
    (settle gaps top).isHeld j ↔ j ≠ 0 ∧ j.toNat ≤ top ∧ j ∉ gaps := by
  induction top generalizing gaps with
  | zero => simp [settle, isHeld_iff]
  | succ top ih =>
    have hn : (UInt16.ofNat (top + 1)).toNat = top + 1 := toNat_ofNat (by omega)
    have hj : UInt16.ofNat (top + 1) = j ↔ j.toNat = top + 1 := by
      rw [← UInt16.toNat_inj, hn, eq_comm]
    simp only [settle]
    split
    · rename_i hc
      rw [Std.ExtTreeSet.contains_iff_mem] at hc
      simp only [ih (by omega : top ≤ 65535), Std.ExtTreeSet.mem_erase, ne_eq,
        Std.LawfulEqCmp.compare_eq_iff_eq, hj]
      by_cases h : j.toNat = top + 1
      · have : j ∈ gaps := hj.2 h ▸ hc
        simp [h, this]
      · have hle : j.toNat ≤ top ↔ j.toNat ≤ top + 1 := by omega
        simp [h, hle]
    · exact isHeld_iff

theorem release_eq_ok {p : IdPool} (hp : p.WF) {id : UInt16} (h : p.isHeld id) :
    ∃ q, p.release id = .ok q ∧ TakesBack p id q := by
  obtain ⟨h0, hle, hg⟩ := isHeld_iff.1 h
  refine ⟨settle (p.gaps.insert id) p.top, by simp [release, h], settle_wf hp.top_le ?_ ?_,
    fun j => ?_⟩
  · intro g hm
    rw [Std.ExtTreeSet.mem_insert, Std.LawfulEqCmp.compare_eq_iff_eq] at hm
    rcases hm with rfl | hm
    · exact h0
    · exact hp.gap_ne_zero g hm
  · intro g hm
    rw [Std.ExtTreeSet.mem_insert, Std.LawfulEqCmp.compare_eq_iff_eq] at hm
    rcases hm with rfl | hm
    · exact hle
    · exact Nat.le_of_lt (hp.gap_lt g hm)
  · rw [isHeld_settle hp.top_le, isHeld_iff, Std.ExtTreeSet.mem_insert,
      Std.LawfulEqCmp.compare_eq_iff_eq]
    by_cases hj : j = id
    · simp [hj]
    · simp [hj, Ne.symm hj]

theorem discard_of_release {p q : IdPool} {id : UInt16} (h : p.release id = .ok q) :
    p.discard id = q := by
  simp [discard, h]

theorem takesBack_discard {p : IdPool} (hp : p.WF) {id : UInt16} (h : p.isHeld id) :
    TakesBack p id (p.discard id) := by
  obtain ⟨q, hq, ht⟩ := release_eq_ok hp h
  rwa [discard_of_release hq]

/-- Taking an identifier back undoes handing it out. -/
theorem Hands.release {p q : IdPool} (hp : p.WF) {id : UInt16} (h : Hands p id q) :
    q.release id = .ok p := by
  obtain ⟨r, hr, ht⟩ := release_eq_ok h.wf ((h.isHeld id).2 (.inr rfl))
  rw [hr, ht.wf.ext hp fun j => ?_]
  rw [Bool.eq_iff_iff, ht.isHeld, h.isHeld]
  constructor
  · rintro ⟨hj | hj, hne⟩
    · exact hj
    · exact absurd hj hne
  · refine fun hj => ⟨.inl hj, ?_⟩
    rintro rfl
    rw [h.fresh] at hj
    cases hj

/-- Held identifiers are taken back one after the other, each of them successfully. -/
theorem release_all {p : IdPool} (hp : p.WF) {ids : List UInt16} (hn : ids.Nodup)
    (hheld : ∀ id ∈ ids, p.isHeld id) :
    ∃ q, ids.foldlM release p = .ok q ∧ ids.foldl discard p = q ∧ q.WF ∧
      ∀ j, q.isHeld j ↔ p.isHeld j ∧ j ∉ ids := by
  induction ids generalizing p with
  | nil => exact ⟨p, rfl, rfl, hp, by simp⟩
  | cons id ids ih =>
    rw [List.nodup_cons] at hn
    obtain ⟨p', hr, ht⟩ := release_eq_ok hp (hheld id (by simp))
    have hheld' : ∀ j ∈ ids, p'.isHeld j := fun j hj =>
      (ht.isHeld j).2 ⟨hheld j (by simp [hj]), fun h => hn.1 (h ▸ hj)⟩
    obtain ⟨q, hq, hd, hw, hi⟩ := ih ht.wf hn.2 hheld'
    refine ⟨q, ?_, ?_, hw, fun j => ?_⟩
    · rw [List.foldlM_cons, hr]
      exact hq
    · rw [List.foldl_cons, discard_of_release hr]
      exact hd
    · rw [hi, ht.isHeld, List.mem_cons, not_or, and_assoc]

end IdPool

end Mqtt
