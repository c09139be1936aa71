import Mqtt.Proofs.Session.Edit
import Mqtt.Session.Sink

/-!
# Records that follow the changes

`Sink.follow` is `Sink.apply` for a change that fits the records: only a new key is stored, and only
the record of a known key is updated or erased. The records of a ledger follow whatever a session
reports: `Session.Edits.follow`.
-/

namespace Mqtt

namespace Sink

/-- Follow a change if it fits the records. -/
def follow (s : Sink) (c : Change) : Option Sink :=
  match c with
  | .store k _ => if (s.get? k).isSome then none else some (s.apply c)
  | .update k _ | .erase k => if (s.get? k).isSome then some (s.apply c) else none

/-- Follow changes in order if each fits the records. -/
def followAll (s : Sink) (cs : List Change) : Option Sink := cs.foldlM follow s

/-- The records of the exchanges in flight. -/
def ofLedger (l : Ledger) : Sink := ⟨l.toList.map fun e => (e.key, Record.encode e)⟩

theorem followAll_append (s : Sink) (cs ds : List Change) :
    s.followAll (cs ++ ds) = (s.followAll cs).bind (·.followAll ds) :=
  List.foldlM_append

theorem followAll_one (s : Sink) (c : Change) : s.followAll [c] = s.follow c := by
  simp [followAll]

theorem isSome_get? {s : Sink} {k : Key} : (s.get? k).isSome ↔ k ∈ s.records.map (·.1) := by
  simp [get?]

section Put

variable {k : Key} {data : Bytes} {rs : List (Key × Bytes)}

theorem go_of_not_mem (h : k ∉ rs.map (·.1)) : put.go k data rs = rs ++ [(k, data)] := by
  induction rs with
  | nil => rfl
  | cons r rs ih =>
    rw [List.map_cons, List.mem_cons, not_or] at h
    rw [put.go, if_neg (Ne.symm h.1), ih h.2]
    rfl

theorem go_of_mem (hn : (rs.map (·.1)).Nodup) (h : k ∈ rs.map (·.1)) :
    put.go k data rs = rs.map fun r => if r.1 = k then (k, data) else r := by
  induction rs with
  | nil => cases h
  | cons r rs ih =>
    rw [List.map_cons, List.nodup_cons] at hn
    rw [put.go, List.map_cons]
    by_cases hr : r.1 = k
    · rw [if_pos hr, if_pos hr]
      have hrest : ∀ x ∈ rs, (if x.1 = k then (k, data) else x) = x := fun x hx => by
        have hne : x.1 ≠ k := fun hk => hn.1 (List.mem_map.2 ⟨x, hx, hk.trans hr.symm⟩)
        rw [if_neg hne]
      rw [List.map_congr_left hrest, List.map_id']
    · have hk : k ∈ rs.map (·.1) := by
        rw [List.map_cons, List.mem_cons] at h
        exact h.resolve_left (Ne.symm hr)
      rw [if_neg hr, if_neg hr, ih hn.2 hk]

end Put

section Ledger

variable {l m : Ledger}

theorem map_fst_ofLedger (l : Ledger) : (ofLedger l).records.map (·.1) = l.keys := by
  simp [ofLedger, Ledger.keys, Function.comp_def]

theorem isSome_get?_ofLedger {k : Key} : ((ofLedger l).get? k).isSome ↔ k ∈ l.keys := by
  rw [isSome_get?, map_fst_ofLedger]

theorem follow_started {e : Exchange} (h : Ledger.Started l e m) :
    (ofLedger l).follow (.started e) = some (ofLedger m) := by
  have hfresh : ¬((ofLedger l).get? e.key).isSome := fun hk => h.fresh (isSome_get?_ofLedger.1 hk)
  have hgo : put.go e.key (Record.encode e) (ofLedger l).records =
      (ofLedger l).records ++ [(e.key, Record.encode e)] :=
    go_of_not_mem (by rw [map_fst_ofLedger]; exact h.fresh)
  rw [Change.started, follow, if_neg hfresh, apply, put, hgo, ofLedger, ofLedger, h.toList,
    List.map_append]
  rfl

theorem follow_moved (hl : l.WF) {e e' : Exchange} (h : Ledger.Moved l e e' m) :
    (ofLedger l).follow (.moved e') = some (ofLedger m) := by
  have hk : e'.key ∈ l.keys := Ledger.mem_keys.2 ⟨e, h.mem, h.key.symm⟩
  have hgo : put.go e'.key (Record.encode e') (ofLedger l).records =
      (ofLedger l).records.map fun r => if r.1 = e'.key then (e'.key, Record.encode e') else r :=
    go_of_mem (by rw [map_fst_ofLedger]; exact hl.nodup_keys) (by rw [map_fst_ofLedger]; exact hk)
  rw [Change.moved, follow, if_pos (isSome_get?_ofLedger.2 hk), apply, put, hgo]
  simp only [ofLedger, h.toList, List.map_map, Option.some.injEq, mk.injEq]
  refine List.map_congr_left fun x _ => ?_
  rw [← h.key]
  by_cases hx : x.key = e'.key <;> simp [hx]

theorem follow_erase (hl : l.WF) {k : Key} (hk : k ∈ l.keys) :
    (ofLedger l).follow (.erase k) = some (ofLedger (l.erase k)) := by
  rw [follow, if_pos (isSome_get?_ofLedger.2 hk), apply, erase, ofLedger, ofLedger,
    Ledger.toList_erase hl, List.filter_map]
  rfl

/-- Erasing one record after the other leaves none. -/
theorem followAll_erase (rs : List (Key × Bytes)) (hn : (rs.map (·.1)).Nodup) :
    followAll ⟨rs⟩ ((rs.map (·.1)).map .erase) = some empty := by
  induction rs with
  | nil => rfl
  | cons r rs ih =>
    rw [List.map_cons, List.nodup_cons] at hn
    have hrest : erase ⟨r :: rs⟩ r.1 = ⟨rs⟩ := by
      have hkeep : ∀ x ∈ rs, decide (x.1 ≠ r.1) = true := fun x hx =>
        decide_eq_true fun hk => hn.1 (List.mem_map.2 ⟨x, hx, hk⟩)
      rw [erase, List.filter_cons_of_neg (by simp), List.filter_eq_self.2 hkeep]
    have hmem : (get? ⟨r :: rs⟩ r.1).isSome := by simp [get?]
    simp only [List.map_cons]
    rw [followAll, List.foldlM_cons, follow, if_pos hmem, apply, hrest]
    exact ih hn.2

theorem followAll_erasures (hl : l.WF) :
    (ofLedger l).followAll (l.keys.map .erase) = some (ofLedger l.clear) := by
  have h := followAll_erase (ofLedger l).records (by rw [map_fst_ofLedger]; exact hl.nodup_keys)
  rw [map_fst_ofLedger] at h
  rw [show ofLedger l.clear = empty by rw [ofLedger, Ledger.toList_clear]; rfl]
  exact h

theorem mem_of_get? {s : Sink} {k : Key} {data : Bytes} (h : s.get? k = some data) :
    (k, data) ∈ s.records := by
  obtain ⟨⟨j, d⟩, hfind, rfl⟩ := Option.map_eq_some_iff.1 h
  obtain rfl : j = k := by simpa using List.find?_some hfind
  exact List.mem_of_find?_eq_some hfind

/-- The record of an exchange in flight. -/
theorem get?_ofLedger (hl : l.WF) {e : Exchange} (he : e ∈ l.toList) :
    (ofLedger l).get? e.key = some (Record.encode e) := by
  obtain ⟨data, hdata⟩ := Option.isSome_iff_exists.1
    (isSome_get?_ofLedger.2 (Ledger.mem_keys.2 ⟨e, he, rfl⟩))
  obtain ⟨x, hx, heq⟩ := List.mem_map.1 (mem_of_get? hdata)
  obtain ⟨hk, rfl⟩ := Prod.mk.inj heq
  rw [hdata, hl.eq_of_key_eq hx he hk]

theorem get?_ofLedger_eq_none {k : Key} (hk : k ∉ l.keys) : (ofLedger l).get? k = none :=
  Option.not_isSome_iff_eq_none.1 fun h => hk (isSome_get?_ofLedger.1 h)

end Ledger

/-! ## Changes that are followed -/

section Apply

variable {s t : Sink} {c : Change} {cs : List Change} {k : Key}

theorem apply_of_follow (h : s.follow c = some t) : s.apply c = t := by
  unfold follow at h
  split at h <;> split at h <;> cases h <;> rfl

theorem applyAll_of_followAll (h : s.followAll cs = some t) : s.applyAll cs = t := by
  induction cs generalizing s with
  | nil => exact Option.some.inj h
  | cons c cs ih =>
    rw [followAll, List.foldlM_cons] at h
    obtain ⟨u, hu, h⟩ := Option.bind_eq_some_iff.1 h
    rw [applyAll, List.foldl_cons, apply_of_follow hu]
    exact ih h

theorem applyAll_append (s : Sink) (cs ds : List Change) :
    s.applyAll (cs ++ ds) = (s.applyAll cs).applyAll ds :=
  List.foldl_append

theorem mem_go {k j : Key} {data : Bytes} {rs : List (Key × Bytes)}
    (h : j ∈ rs.map (·.1) ∨ j = k) : j ∈ (put.go k data rs).map (·.1) := by
  induction rs with
  | nil => simpa [put.go] using h
  | cons r rs ih =>
    rw [put.go]
    split
    · rename_i hr
      rw [List.map_cons, List.mem_cons] at h ⊢
      rcases h with (h | h) | h
      · exact .inl (h.trans hr)
      · exact .inr h
      · exact .inl h
    · rw [List.map_cons, List.mem_cons] at h ⊢
      rcases h with (h | h) | h
      · exact .inl h
      · exact .inr (ih (.inl h))
      · exact .inr (ih (.inr h))

/-- A record stays until it is erased. -/
theorem isSome_get?_apply (hk : (s.get? k).isSome) (hc : c ≠ .erase k) :
    ((s.apply c).get? k).isSome := by
  rw [isSome_get?] at hk ⊢
  cases c with
  | store j data | update j data => exact mem_go (.inl hk)
  | erase j =>
    have hne : k ≠ j := fun h => hc (h ▸ rfl)
    obtain ⟨r, hr, rfl⟩ := List.mem_map.1 hk
    exact List.mem_map.2 ⟨r, List.mem_filter.2 ⟨hr, by simpa using hne⟩, rfl⟩

theorem isSome_get?_applyAll (hk : (s.get? k).isSome) (hcs : .erase k ∉ cs) :
    ((s.applyAll cs).get? k).isSome := by
  induction cs generalizing s with
  | nil => exact hk
  | cons c cs ih =>
    rw [List.mem_cons, not_or] at hcs
    exact ih (isSome_get?_apply hk (Ne.symm hcs.1)) hcs.2

theorem mem_go_inv {data : Bytes} {rs : List (Key × Bytes)} {x : Key × Bytes}
    (h : x ∈ put.go k data rs) : x = (k, data) ∨ x ∈ rs := by
  induction rs with
  | nil => exact .inl (List.mem_singleton.1 h)
  | cons r rs ih =>
    rw [put.go] at h
    split at h
    · exact (List.mem_cons.1 h).imp_right (List.mem_cons_of_mem r)
    · rcases List.mem_cons.1 h with rfl | h
      · exact .inr List.mem_cons_self
      · exact (ih h).imp_right (List.mem_cons_of_mem r)

end Apply

end Sink

namespace Session

variable {s t : Session} {cs : List Change}

theorem Edit.follow (hs : s.WF) (h : Edit s cs t) :
    (Sink.ofLedger s.ledger).followAll cs = some (Sink.ofLedger t.ledger) := by
  have hsame : ∀ {m : Ledger}, m = s.ledger →
      (Sink.ofLedger s.ledger).followAll [] = some (Sink.ofLedger m) := by
    rintro m rfl
    rfl
  cases h with
  | keep hl hi hsub hunsub => exact hsame hl
  | startOutbound hids hk hc hl => exact (Sink.followAll_one _ _).trans (Sink.follow_started hl)
  | startInbound hd hc hl => exact (Sink.followAll_one _ _).trans (Sink.follow_started hl)
  | move hf hc hl => exact (Sink.followAll_one _ _).trans (Sink.follow_moved hs.ledger hl)
  | @complete k hk =>
    rw [Sink.followAll_one, Sink.follow_erase hs.ledger hk, hs.complete_eq, if_pos hk]
  | purge => exact Sink.followAll_erasures hs.ledger
  | subscribe p hids => exact hsame rfl
  | unsubscribe p hids => exact hsame rfl
  | completeSubscribe id => exact hsame (ledger_completeSubscribe s id)
  | completeUnsubscribe id => exact hsame (ledger_completeUnsubscribe s id)
  | dropRequests => exact hsame (ledger_dropRequests s)

/-- The records of the ledger follow what a session reports. -/
theorem Edits.follow (hs : s.WF) (h : Edits s cs t) :
    (Sink.ofLedger s.ledger).followAll cs = some (Sink.ofLedger t.ledger) := by
  induction h with
  | none => rfl
  | next h _ ih => rw [Sink.followAll_append, h.follow hs, Option.bind_some, ih (h.wf hs)]

end Session

end Mqtt
