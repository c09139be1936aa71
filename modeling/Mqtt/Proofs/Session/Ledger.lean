import Mathlib.Data.List.Sort
import Mqtt.Proofs.Success
import Mqtt.Session.Ledger

/-!
# The ledger as a list

A well-formed ledger is an association list: its exchanges have different keys, `get?` finds the one
with a key (`get?_eq_some_iff`), and each operation is an operation on `toList`:

* `toList_insert`: a new exchange stands behind all others;
* `toList_modify`: a changed exchange stays in its place;
* `toList_erase`: an exchange is taken out, the others keep their order;
* `toList_clear`: nothing is left.
-/

namespace Mqtt

/-! ## Maps by place -/

/-- The pairs of a map from places, in order, are the only increasing list with its members. -/
theorem toList_eq_of_mem_iff {α : Type} {m : Std.ExtTreeMap Nat α} {xs : List (Nat × α)}
    (hs : xs.Pairwise (·.1 < ·.1)) (h : ∀ n a, (n, a) ∈ xs ↔ m[n]? = some a) : m.toList = xs := by
  have : Std.Irrefl fun a b : Nat × α => a.1 < b.1 := ⟨fun a => Nat.lt_irrefl a.1⟩
  have : Std.Antisymm fun a b : Nat × α => a.1 < b.1 :=
    ⟨fun a b hab hba => absurd (Nat.lt_trans hab hba) (Nat.lt_irrefl _)⟩
  refine List.Pairwise.eq_of_mem_iff (r := fun a b : Nat × α => a.1 < b.1)
    (m.ordered_keys_toList.imp Nat.compare_eq_lt.1) hs fun a => ?_
  rw [h, ← Std.ExtTreeMap.mem_toList_iff_getElem?_eq_some]

theorem pairwise_toList {α : Type} (m : Std.ExtTreeMap Nat α) :
    m.toList.Pairwise (·.1 < ·.1) :=
  m.ordered_keys_toList.imp Nat.compare_eq_lt.1

namespace Ledger

/-- The places of the keys are those of the exchanges that have them, all below `nextPlace`. -/
structure WF (l : Ledger) : Prop where
  places_iff : ∀ (k : Key) (n : Nat),
    l.places[k]? = some n ↔ ∃ e : Exchange, l.entries[n]? = some e ∧ e.key = k
  lt_next : ∀ (n : Nat) (e : Exchange), l.entries[n]? = some e → n < l.nextPlace

theorem mem_toList {l : Ledger} {e : Exchange} :
    e ∈ l.toList ↔ ∃ n : Nat, l.entries[n]? = some e := by
  simp only [toList, List.mem_map, Prod.exists, Std.ExtTreeMap.mem_toList_iff_getElem?_eq_some,
    exists_eq_right]

theorem mem_keys {l : Ledger} {k : Key} : k ∈ l.keys ↔ ∃ e ∈ l.toList, e.key = k := by
  simp [keys]

theorem wf_empty : WF empty :=
  ⟨by simp [empty], by simp [empty]⟩

@[simp] theorem toList_empty : empty.toList = [] := by simp [toList, empty]

@[simp] theorem isEmpty_iff {l : Ledger} : l.isEmpty ↔ l.toList = [] := by
  rw [isEmpty, Std.ExtTreeMap.isEmpty_iff, toList, List.map_eq_nil_iff,
    Std.ExtTreeMap.toList_eq_nil_iff]

/-! ## Looking up -/

section Lookup

variable {l : Ledger} (hl : l.WF) {k : Key} {e : Exchange}
include hl

theorem WF.place_unique {n m : Nat} {a b : Exchange} (hn : l.entries[n]? = some a)
    (hm : l.entries[m]? = some b) (h : a.key = b.key) : n = m := by
  have h₁ := (hl.places_iff b.key n).2 ⟨a, hn, h⟩
  rw [(hl.places_iff b.key m).2 ⟨b, hm, rfl⟩] at h₁
  exact (Option.some.inj h₁).symm

/-- Looking a key up finds the exchange that has it. -/
theorem WF.get?_eq_some_iff : l.get? k = some e ↔ e ∈ l.toList ∧ e.key = k := by
  simp only [get?, Option.bind_eq_bind, Option.bind_eq_some_iff, mem_toList]
  constructor
  · rintro ⟨n, hn, he⟩
    obtain ⟨a, ha, hk⟩ := (hl.places_iff k n).1 hn
    obtain rfl : e = a := by simpa [he] using ha
    exact ⟨⟨n, he⟩, hk⟩
  · rintro ⟨⟨n, hn⟩, hk⟩
    exact ⟨n, (hl.places_iff k n).2 ⟨e, hn, hk⟩, hn⟩

theorem WF.eq_of_key_eq {a b : Exchange} (ha : a ∈ l.toList) (hb : b ∈ l.toList)
    (h : a.key = b.key) : a = b := by
  have h₁ := hl.get?_eq_some_iff.2 ⟨ha, h⟩
  rw [hl.get?_eq_some_iff.2 ⟨hb, rfl⟩] at h₁
  exact (Option.some.inj h₁).symm

theorem WF.contains_iff : l.contains k ↔ k ∈ l.keys := by
  rw [contains, Std.ExtTreeMap.contains_eq_isSome_getElem?, Option.isSome_iff_exists, mem_keys]
  simp only [hl.places_iff, mem_toList]
  constructor
  · rintro ⟨n, e, he, hk⟩
    exact ⟨e, ⟨n, he⟩, hk⟩
  · rintro ⟨e, ⟨n, he⟩, hk⟩
    exact ⟨n, e, he, hk⟩

theorem WF.contains_eq_false_iff : l.contains k = false ↔ k ∉ l.keys := by
  rw [← hl.contains_iff, Bool.not_eq_true]

theorem WF.get?_eq_none_iff : l.get? k = none ↔ k ∉ l.keys := by
  rw [Option.eq_none_iff_forall_ne_some, mem_keys]
  simp only [ne_eq, hl.get?_eq_some_iff, not_exists, not_and]

theorem WF.nodup_keys : l.keys.Nodup := by
  rw [keys, toList, List.map_map, List.Nodup, List.pairwise_map]
  refine (pairwise_toList l.entries).imp_of_mem fun {a b} ha hb hlt hk => ?_
  rw [← Prod.mk.eta (p := a), Std.ExtTreeMap.mem_toList_iff_getElem?_eq_some] at ha
  rw [← Prod.mk.eta (p := b), Std.ExtTreeMap.mem_toList_iff_getElem?_eq_some] at hb
  exact absurd (hl.place_unique ha hb hk) (Nat.ne_of_lt hlt)

end Lookup

/-! ## Inserting -/

/-- `m` is `l` with a new exchange behind all others. -/
structure Started (l : Ledger) (e : Exchange) (m : Ledger) : Prop where
  wf : m.WF
  fresh : e.key ∉ l.keys
  toList : m.toList = l.toList ++ [e]

section Insert

variable {l m : Ledger} (hl : l.WF) {e : Exchange}
include hl

theorem insert_eq_ok (h : e.key ∉ l.keys) : ∃ m, l.insert e = .ok m := by
  rw [insert, hl.contains_eq_false_iff.2 h]
  exact ⟨_, rfl⟩

theorem insert_eq_error (h : e.key ∈ l.keys) : l.insert e = .error (.identifierInUse e.id) :=
  if_pos (hl.contains_iff.2 h)

theorem key_not_mem_of_insert (h : l.insert e = .ok m) : e.key ∉ l.keys := by
  rw [← hl.contains_iff]
  intro hc
  rw [insert, if_pos hc] at h
  cases h

theorem wf_insert (h : l.insert e = .ok m) : m.WF := by
  have hk := key_not_mem_of_insert hl h
  rw [insert, hl.contains_eq_false_iff.2 hk] at h
  cases h
  have hnext : ∀ a : Exchange, l.entries[l.nextPlace]? ≠ some a := fun a ha =>
    absurd (hl.lt_next _ a ha) (Nat.lt_irrefl _)
  refine ⟨fun k n => ?_, fun n a ha => ?_⟩
  · simp only [Std.ExtTreeMap.getElem?_insert, Std.LawfulEqCmp.compare_eq_iff_eq]
    by_cases hek : e.key = k
    · subst hek
      by_cases hn : l.nextPlace = n
      · simp [hn]
      · simp only [↓reduceIte, Option.some.injEq, hn, false_iff, not_exists, not_and]
        intro a ha hka
        exact hk (mem_keys.2 ⟨a, mem_toList.2 ⟨n, ha⟩, hka⟩)
    · by_cases hn : l.nextPlace = n
      · subst hn
        simp [hek, hl.places_iff, hnext]
      · simp [hek, hn, hl.places_iff]
  · simp only [Std.ExtTreeMap.getElem?_insert, Std.LawfulEqCmp.compare_eq_iff_eq] at ha
    split at ha
    · rename_i hn
      exact hn ▸ Nat.lt_succ_self _
    · exact Nat.lt_succ_of_lt (hl.lt_next n a ha)

/-- A new exchange stands behind all others. -/
theorem toList_insert (h : l.insert e = .ok m) : m.toList = l.toList ++ [e] := by
  rw [insert, hl.contains_eq_false_iff.2 (key_not_mem_of_insert hl h)] at h
  cases h
  have hlt : ∀ a ∈ l.entries.toList, a.1 < l.nextPlace := by
    rintro ⟨n, a⟩ ha
    exact hl.lt_next n a (Std.ExtTreeMap.mem_toList_iff_getElem?_eq_some.1 ha)
  have hs : (l.entries.insert l.nextPlace e).toList = l.entries.toList ++ [(l.nextPlace, e)] := by
    refine toList_eq_of_mem_iff ?_ fun n a => ?_
    · rw [List.pairwise_append]
      exact ⟨pairwise_toList _, List.pairwise_singleton _ _, by simpa using fun n a => hlt (n, a)⟩
    · simp only [List.mem_append, Std.ExtTreeMap.mem_toList_iff_getElem?_eq_some,
        List.mem_singleton, Prod.mk.injEq, Std.ExtTreeMap.getElem?_insert,
        Std.LawfulEqCmp.compare_eq_iff_eq]
      by_cases hn : l.nextPlace = n
      · subst hn
        have : l.entries[l.nextPlace]? ≠ some a := fun ha =>
          absurd (hl.lt_next _ a ha) (Nat.lt_irrefl _)
        simp [this, eq_comm]
      · simp [hn, Ne.symm hn]
  simp [toList, hs]

theorem started_of_insert (h : l.insert e = .ok m) : Started l e m :=
  ⟨wf_insert hl h, key_not_mem_of_insert hl h, toList_insert hl h⟩

end Insert

theorem Started.keys {l m : Ledger} {e : Exchange} (h : Started l e m) :
    m.keys = l.keys ++ [e.key] := by
  simp [Ledger.keys, h.toList]

/-! ## Changing -/

/-- `m` is `l` with the exchange `e` changed to `e'` in its place. -/
structure Moved (l : Ledger) (e e' : Exchange) (m : Ledger) : Prop where
  wf : m.WF
  mem : e ∈ l.toList
  key : e'.key = e.key
  toList : m.toList = l.toList.map fun x => if x.key = e.key then e' else x

section Modify

variable {l m : Ledger} {k : Key} {f : Exchange → Except Error Exchange}

/-- A change is refused only if no exchange has the key or the change itself is refused. -/
theorem modify_eq_ok {e e' : Exchange} (h : l.get? k = some e) (hf : f e = .ok e') :
    ∃ m, l.modify k f = .ok m := by
  simp only [get?, Option.bind_eq_bind, Option.bind_eq_some_iff] at h
  obtain ⟨n, hn, he⟩ := h
  exact ⟨_, by simp only [modify, hn, he, hf]; rfl⟩

theorem modify_eq_of_none (h : l.get? k = none) :
    l.modify k f = .error (.identifierNotFound k.id) := by
  rw [Ledger.get?] at h
  unfold modify
  cases hn : l.places[k]? with
  | none => rfl
  | some n =>
    rw [hn] at h
    have he : l.entries[n]? = none := h
    simp only [he]

theorem modify_eq_error {e : Exchange} {err : Error} (h : l.get? k = some e)
    (hf : f e = .error err) : l.modify k f = .error err := by
  simp only [Ledger.get?, Option.bind_eq_bind, Option.bind_eq_some_iff] at h
  obtain ⟨n, hn, he⟩ := h
  simp only [modify, hn, he, hf]
  rfl

variable (hl : l.WF)
include hl

theorem modify_inv (h : l.modify k f = .ok m) :
    ∃ (n : Nat) (e e' : Exchange), l.entries[n]? = some e ∧ e.key = k ∧ f e = .ok e' ∧
      m = { l with entries := l.entries.insert n e' } := by
  unfold modify at h
  split at h
  · cases h
  rename_i n hn
  split at h
  · cases h
  rename_i e he
  obtain ⟨a, ha, hk⟩ := (hl.places_iff k n).1 hn
  obtain rfl : a = e := by simpa [he] using ha.symm
  simp only [Except.bind_eq_ok_iff, Except.pure_eq_ok_iff] at h
  obtain ⟨e', hf, rfl⟩ := h
  exact ⟨n, a, e', he, hk, hf, rfl⟩

/-- A changed exchange stays in its place. -/
theorem toList_modify (h : l.modify k f = .ok m) :
    ∃ e e', l.get? k = some e ∧ f e = .ok e' ∧
      m.toList = l.toList.map fun x => if x.key = k then e' else x := by
  obtain ⟨n, e, e', he, hk, hf, rfl⟩ := modify_inv hl h
  refine ⟨e, e', hl.get?_eq_some_iff.2 ⟨mem_toList.2 ⟨n, he⟩, hk⟩, hf, ?_⟩
  have hs : (l.entries.insert n e').toList =
      l.entries.toList.map fun x => (x.1, if x.1 = n then e' else x.2) := by
    refine toList_eq_of_mem_iff ?_ fun p a => ?_
    · rw [List.pairwise_map]
      exact pairwise_toList _
    · simp only [List.mem_map, Prod.exists, Std.ExtTreeMap.mem_toList_iff_getElem?_eq_some,
        Prod.mk.injEq, Std.ExtTreeMap.getElem?_insert, Std.LawfulEqCmp.compare_eq_iff_eq]
      by_cases hp : n = p
      · subst hp
        constructor
        · rintro ⟨q, b, -, rfl, h⟩
          simpa using h
        · intro h
          exact ⟨n, e, he, rfl, by simpa using h⟩
      · simp only [hp, ↓reduceIte]
        constructor
        · rintro ⟨q, b, hb, rfl, h⟩
          rw [if_neg (Ne.symm hp)] at h
          exact h ▸ hb
        · intro h
          exact ⟨p, a, h, rfl, if_neg (Ne.symm hp)⟩
  simp only [toList, hs, List.map_map]
  refine List.map_congr_left fun x hx => ?_
  obtain ⟨p, b⟩ := x
  rw [Std.ExtTreeMap.mem_toList_iff_getElem?_eq_some] at hx
  by_cases hp : p = n
  · subst hp
    obtain rfl : e = b := by simpa [he] using hx
    simp [hk]
  · have hbk : b.key ≠ k := fun hbk => hp (hl.place_unique hx he (hbk.trans hk.symm))
    simp [hp, hbk]

theorem wf_modify (hkey : ∀ e e', f e = .ok e' → e'.key = e.key) (h : l.modify k f = .ok m) :
    m.WF := by
  obtain ⟨n, e, e', he, hk, hf, rfl⟩ := modify_inv hl h
  refine ⟨fun j p => ?_, fun p a ha => ?_⟩
  · simp only [Std.ExtTreeMap.getElem?_insert, Std.LawfulEqCmp.compare_eq_iff_eq, hl.places_iff]
    by_cases hp : n = p
    · subst hp
      simp [he, hkey e e' hf]
    · simp [hp]
  · simp only [Std.ExtTreeMap.getElem?_insert, Std.LawfulEqCmp.compare_eq_iff_eq] at ha
    split at ha
    · rename_i hp
      exact hp ▸ hl.lt_next n e he
    · exact hl.lt_next p a ha

theorem moved_of_modify (hkey : ∀ e e', f e = .ok e' → e'.key = e.key) (h : l.modify k f = .ok m) :
    ∃ e e', l.get? k = some e ∧ f e = .ok e' ∧ Moved l e e' m := by
  obtain ⟨e, e', hg, hf, hm⟩ := toList_modify hl h
  obtain ⟨hmem, hk⟩ := hl.get?_eq_some_iff.1 hg
  exact ⟨e, e', hg, hf, wf_modify hl hkey h, hmem, hkey e e' hf, hk ▸ hm⟩

end Modify

theorem Moved.keys {l m : Ledger} {e e' : Exchange} (h : Moved l e e' m) : m.keys = l.keys := by
  rw [Ledger.keys, h.toList, List.map_map, Ledger.keys]
  refine List.map_congr_left fun x _ => ?_
  by_cases hx : x.key = e.key
  · simp [hx, h.key]
  · simp [hx]

theorem Moved.get? {l m : Ledger} {e e' : Exchange} (h : Moved l e e' m) :
    m.get? e.key = some e' := by
  rw [h.wf.get?_eq_some_iff, h.toList]
  exact ⟨List.mem_map.2 ⟨e, h.mem, if_pos rfl⟩, h.key⟩

/-! ## Taking out -/

section Erase

variable {l : Ledger} (hl : l.WF) (k : Key)
include hl

/-- An exchange is taken out; the others keep their order. -/
theorem toList_erase : (l.erase k).toList = l.toList.filter (·.key ≠ k) := by
  unfold erase
  split
  · rename_i hn
    symm
    rw [List.filter_eq_self]
    intro e he
    obtain ⟨p, hp⟩ := mem_toList.1 he
    have : e.key ≠ k := by
      rintro rfl
      rw [(hl.places_iff e.key p).2 ⟨e, hp, rfl⟩] at hn
      cases hn
    simpa using this
  · rename_i n hn
    obtain ⟨e, he, hk⟩ := (hl.places_iff k n).1 hn
    have hs : (l.entries.erase n).toList = l.entries.toList.filter (·.1 ≠ n) := by
      refine toList_eq_of_mem_iff ((pairwise_toList _).filter _) fun p a => ?_
      simp only [List.mem_filter, Std.ExtTreeMap.mem_toList_iff_getElem?_eq_some,
        Std.ExtTreeMap.getElem?_erase, Std.LawfulEqCmp.compare_eq_iff_eq]
      by_cases hp : n = p
      · simp [hp]
      · simp [hp, Ne.symm hp]
    simp only [toList, hs, List.filter_map]
    congr 1
    refine List.filter_congr fun x hx => ?_
    obtain ⟨p, a⟩ := x
    rw [Std.ExtTreeMap.mem_toList_iff_getElem?_eq_some] at hx
    have : p = n ↔ a.key = k := by
      constructor
      · rintro rfl
        obtain rfl : e = a := by simpa [he] using hx
        exact hk
      · exact fun hak => hl.place_unique hx he (hak.trans hk.symm)
    simp [this]

theorem wf_erase : (l.erase k).WF := by
  unfold erase
  split
  · exact hl
  · rename_i n hn
    obtain ⟨e, he, hk⟩ := (hl.places_iff k n).1 hn
    refine ⟨fun j p => ?_, fun p a ha => ?_⟩
    · simp only [Std.ExtTreeMap.getElem?_erase, Std.LawfulEqCmp.compare_eq_iff_eq]
      by_cases hj : k = j
      · subst hj
        simp only [↓reduceIte, false_iff, not_exists, not_and, reduceCtorEq]
        intro a ha hak
        split at ha
        · cases ha
        · rename_i hp
          exact hp (hl.place_unique he ha (hk.trans hak.symm))
      · rw [if_neg hj, hl.places_iff]
        by_cases hp : n = p
        · subst hp
          simp [he, hk, hj]
        · simp [hp]
    · simp only [Std.ExtTreeMap.getElem?_erase, Std.LawfulEqCmp.compare_eq_iff_eq] at ha
      split at ha
      · cases ha
      · exact hl.lt_next p a ha

end Erase

@[simp] theorem toList_clear (l : Ledger) : l.clear.toList = [] := by simp [toList, clear]

/-- Taking all exchanges out changes nothing where there are none. -/
theorem WF.clear_eq {l : Ledger} (hl : l.WF) (h : l.toList = []) : l.clear = l := by
  have hentries : l.entries = ∅ :=
    Std.ExtTreeMap.isEmpty_iff.1 (isEmpty_iff.2 h)
  have hplaces : l.places = ∅ := by
    refine Std.ExtTreeMap.ext_getElem? fun k => ?_
    rw [Std.ExtTreeMap.getElem?_empty, ← Option.not_isSome_iff_eq_none, Option.isSome_iff_exists]
    rintro ⟨n, hn⟩
    obtain ⟨e, he, -⟩ := (hl.places_iff k n).1 hn
    have hmem : e ∈ l.toList := mem_toList.2 ⟨n, he⟩
    rw [h] at hmem
    cases hmem
  rw [clear, ← hentries, ← hplaces]

theorem wf_clear (l : Ledger) : l.clear.WF :=
  ⟨by simp [clear], by simp [clear]⟩

end Ledger

end Mqtt
