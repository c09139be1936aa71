import Mqtt.Proofs.Session.Exchange
import Mqtt.Proofs.Session.Ledger

/-!
# The ledger keeps the order of insertion

A list of exchanges with different keys is what a ledger stands for: a new exchange is put at its
end, a changed one stays where it is, and one that is taken out leaves the others in their order
(`Call.onList`). Over every history of calls a ledger answers as the list does, and whatever is
asked of it afterwards is read off the list (`insertionOrdered_after`). In between, its two maps
agree: `Ledger.WF` is kept by every call (`Lists.run`).
-/

namespace Mqtt

namespace Ledger

/-- A call to a ledger. -/
inductive Call
  | insert (e : Exchange)
  | update (k : Key) (awaits : PacketType) (frame : Bytes)
  | replaceFrame (k : Key) (frame : Bytes) (version : Version)
  | remove (k : Key)
  | drain

/-- What a call answers. -/
inductive Answer
  | done
  | refused (e : Error)
  /-- The exchange that was taken out, if there was one. -/
  | removed (e : Option Exchange)
  /-- The exchanges that were taken out, in order. -/
  | drained (es : List Exchange)
  deriving DecidableEq

namespace Call

/-- The answer to a call that may be refused, and what it leaves. -/
def settle {σ : Type} (s : σ) : Except Error σ → Answer × σ
  | .ok t => (.done, t)
  | .error e => (.refused e, s)

/-- The exchange with a key. -/
def lookup (xs : List Exchange) (k : Key) : Option Exchange := xs.find? (·.key = k)

/-- Put an exchange at the end unless its key is in use. -/
def append (xs : List Exchange) (e : Exchange) : Except Error (List Exchange) :=
  if e.key ∈ xs.map Exchange.key then .error (.identifierInUse e.id) else .ok (xs ++ [e])

/-- Change the exchange with a key where it stands, unless the change is refused. -/
def change (xs : List Exchange) (k : Key) (f : Exchange → Except Error Exchange) :
    Except Error (List Exchange) :=
  match lookup xs k with
  | none => .error (.identifierNotFound k.id)
  | some e => do
    let e' ← f e
    return xs.map fun x => if x.key = k then e' else x

/-- What a ledger answers to a call, and the ledger behind it. -/
def run (l : Ledger) : Call → Answer × Ledger
  | insert e => settle l (l.insert e)
  | update k awaits frame => settle l (l.update k awaits frame)
  | replaceFrame k frame version => settle l (l.replaceFrame k frame version)
  | remove k => (.removed (l.get? k), l.erase k)
  | drain => (.drained l.toList, l.clear)

/-- What a list of exchanges answers to a call, and the list behind it. -/
def onList (xs : List Exchange) : Call → Answer × List Exchange
  | insert e => settle xs (append xs e)
  | update k awaits frame => settle xs (change xs k fun e => { e with awaits, frame }.checked)
  | replaceFrame k frame version => settle xs (change xs k fun e => .ok { e with frame, version })
  | remove k => (.removed (lookup xs k), xs.filter (·.key ≠ k))
  | drain => (.drained xs, [])

/-- The answers to calls one after another, and what they leave. -/
def inTurn {σ : Type} (step : σ → Call → Answer × σ) (s : σ) : List Call → List Answer × σ
  | [] => ([], s)
  | c :: cs =>
    let r := inTurn step (step s c).2 cs
    ((step s c).1 :: r.1, r.2)

end Call

/-- The ledger is well formed, and its exchanges are those of the list in its order. -/
structure Lists (l : Ledger) (xs : List Exchange) : Prop where
  wf : l.WF
  toList : l.toList = xs

/-- A ledger that stands for a list of exchanges with different keys: what is asked of it is read
off the list, and a call that leaves the list as it was leaves the ledger as it was. -/
structure InsertionOrdered (l : Ledger) (xs : List Exchange) : Prop where
  wf : l.WF
  nodup : (xs.map Exchange.key).Nodup
  toList : l.toList = xs
  keys : l.keys = xs.map Exchange.key
  size : l.size = xs.length
  isEmpty : l.isEmpty = xs.isEmpty
  contains : ∀ k, l.contains k ↔ k ∈ xs.map Exchange.key
  get? : ∀ k, l.get? k = Call.lookup xs k
  awaits? : ∀ k, l.awaits? k = (Call.lookup xs k).map (·.awaits)
  unchanged : ∀ c, (Call.onList xs c).2 = xs → (Call.run l c).2 = l

section

variable {l m : Ledger} {xs : List Exchange} {k : Key} {f : Exchange → Except Error Exchange}

/-! ## Answers -/

theorem Lists.keys (h : Lists l xs) : l.keys = xs.map Exchange.key := by
  rw [Ledger.keys, h.toList]

/-- Looking a key up is a search through the list. -/
theorem Lists.get? (h : Lists l xs) (k : Key) : l.get? k = Call.lookup xs k := by
  rw [Call.lookup]
  cases hfind : xs.find? (·.key = k) with
  | none =>
    rw [h.wf.get?_eq_none_iff, h.keys, List.mem_map]
    rintro ⟨e, he, hk⟩
    exact List.find?_eq_none.1 hfind e he (decide_eq_true hk)
  | some e =>
    have hk : e.key = k := by simpa using List.find?_some hfind
    exact h.wf.get?_eq_some_iff.2 ⟨h.toList ▸ List.mem_of_find?_eq_some hfind, hk⟩

theorem Lists.insert (h : Lists l xs) (e : Exchange) :
    Matches Lists (l.insert e) (Call.append xs e) := by
  by_cases hk : e.key ∈ l.keys
  · rw [insert_eq_error h.wf hk, Call.append, if_pos (h.keys ▸ hk)]
    exact .error _
  · obtain ⟨m, hm⟩ := insert_eq_ok h.wf hk
    rw [hm, Call.append, if_neg (h.keys ▸ hk), ← h.toList]
    exact .ok ⟨wf_insert h.wf hm, toList_insert h.wf hm⟩

theorem Lists.modify (h : Lists l xs) (hkey : ∀ e e', f e = .ok e' → e'.key = e.key) :
    Matches Lists (l.modify k f) (Call.change xs k f) := by
  rcases hg : l.get? k with _ | e
  · rw [modify_eq_of_none hg, Call.change, ← h.get?, hg]
    exact .error _
  rcases hf : f e with err | e'
  · rw [modify_eq_error hg hf, Call.change, ← h.get?, hg]
    simp only [hf]
    exact .error _
  obtain ⟨m, hm⟩ := modify_eq_ok hg hf
  obtain ⟨a, a', ha, hfa, hlist⟩ := toList_modify h.wf hm
  obtain rfl : e = a := Option.some.inj (hg.symm.trans ha)
  obtain rfl : e' = a' := Except.ok.inj (hf.symm.trans hfa)
  rw [hm, Call.change, ← h.get?, hg]
  simp only [hf]
  exact .ok ⟨wf_modify h.wf hkey hm, by rw [hlist, h.toList]⟩

theorem Lists.update (h : Lists l xs) (k : Key) (awaits : PacketType) (frame : Bytes) :
    Matches Lists (l.update k awaits frame)
      (Call.change xs k fun e => { e with awaits, frame }.checked) :=
  h.modify fun e e' he => by
    obtain ⟨rfl, -⟩ := Exchange.checked_inv he
    rfl

theorem Lists.replaceFrame (h : Lists l xs) (k : Key) (frame : Bytes) (version : Version) :
    Matches Lists (l.replaceFrame k frame version)
      (Call.change xs k fun e => .ok { e with frame, version }) :=
  h.modify fun e e' he => by
    cases he
    rfl

/-- Calls that are refused for the same reason, or not at all, have the same answer. -/
theorem Call.settle_matches {σ τ : Type} {R : σ → τ → Prop} {s : σ} {t : τ} {x : Except Error σ}
    {y : Except Error τ} (h : Matches R x y) (hst : R s t) :
    (settle s x).1 = (settle t y).1 ∧ R (settle s x).2 (settle t y).2 := by
  cases h with
  | ok h => exact ⟨rfl, h⟩
  | error e => exact ⟨rfl, hst⟩

/-- A ledger answers a call as its list does, and goes on standing for it. -/
theorem Lists.run (h : Lists l xs) (c : Call) :
    (Call.run l c).1 = (Call.onList xs c).1 ∧ Lists (Call.run l c).2 (Call.onList xs c).2 := by
  cases c with
  | insert e => exact Call.settle_matches (h.insert e) h
  | update k awaits frame => exact Call.settle_matches (h.update k awaits frame) h
  | replaceFrame k frame version => exact Call.settle_matches (h.replaceFrame k frame version) h
  | remove k =>
    refine ⟨congrArg Answer.removed (h.get? k), wf_erase h.wf k, ?_⟩
    rw [← h.toList]
    exact toList_erase h.wf k
  | drain => exact ⟨congrArg Answer.drained h.toList, wf_clear l, toList_clear l⟩

/-- Whatever the calls are, a ledger answers them as its list does. -/
theorem Lists.inTurn (h : Lists l xs) (cs : List Call) :
    (Call.inTurn Call.run l cs).1 = (Call.inTurn Call.onList xs cs).1 ∧
      Lists (Call.inTurn Call.run l cs).2 (Call.inTurn Call.onList xs cs).2 := by
  induction cs generalizing l xs with
  | nil => exact ⟨rfl, h⟩
  | cons c cs ih =>
    obtain ⟨hanswer, hnext⟩ := h.run c
    obtain ⟨hanswers, hlast⟩ := ih hnext
    exact ⟨List.cons_eq_cons.2 ⟨hanswer, hanswers⟩, hlast⟩

/-! ## Calls that change nothing -/

/-- Taking out what is not there changes nothing. -/
theorem erase_eq_self (hl : l.WF) (hk : k ∉ l.keys) : l.erase k = l := by
  have hplace : l.places[k]? = none := by
    rw [← hl.contains_eq_false_iff, contains, Std.ExtTreeMap.contains_eq_isSome_getElem?] at hk
    exact Option.not_isSome_iff_eq_none.1 (by rw [hk]; decide)
  rw [erase, hplace]

/-- An exchange that is replaced by itself changes nothing. -/
theorem modify_eq_self (hl : l.WF) (h : l.modify k f = .ok m) (hlist : m.toList = l.toList) :
    m = l := by
  obtain ⟨e, e', hg, hf, hmap⟩ := toList_modify hl h
  obtain ⟨hmem, hk⟩ := hl.get?_eq_some_iff.1 hg
  have hsame : e' = e := by
    have hid : l.toList.map (fun x => if x.key = k then e' else x) = l.toList.map id := by
      rw [← hmap, hlist, List.map_id]
    simpa [hk] using List.map_inj_left.1 hid e hmem
  obtain ⟨n, a, a', ha, hka, hfa, rfl⟩ := modify_inv hl h
  obtain rfl : a = e := hl.eq_of_key_eq (mem_toList.2 ⟨n, ha⟩) hmem (hka.trans hk.symm)
  obtain rfl : a' = a := (Except.ok.inj (hfa.symm.trans hf)).trans hsame
  have hentries : l.entries.insert n a' = l.entries := by
    refine Std.ExtTreeMap.ext_getElem? fun p => ?_
    rw [Std.ExtTreeMap.getElem?_insert]
    split
    · rename_i hp
      rw [← Std.LawfulEqCmp.compare_eq_iff_eq.1 hp, ha]
    · rfl
  rw [hentries]

/-- What a call leaves is what was there or what it made of it. -/
theorem Call.settle_elim {σ : Type} {P : σ → Prop} {s : σ} {x : Except Error σ} (hs : P s)
    (hx : ∀ t, x = .ok t → P t) : P (settle s x).2 := by
  cases x with
  | ok t => exact hx t rfl
  | error e => exact hs

/-- A call that leaves the list as it was leaves the ledger as it was. -/
theorem Lists.run_eq_self (h : Lists l xs) {c : Call} (hc : (Call.onList xs c).2 = xs) :
    (Call.run l c).2 = l := by
  have hxs : (Call.run l c).2.toList = l.toList :=
    (h.run c).2.toList.trans (hc.trans h.toList.symm)
  revert hxs
  cases c with
  | insert e =>
    refine Call.settle_elim (P := fun m => m.toList = l.toList → m = l) (fun _ => rfl) ?_
    intro m hm hxs
    rw [toList_insert h.wf hm] at hxs
    simp at hxs
  | update k awaits frame =>
    exact Call.settle_elim (P := fun m => m.toList = l.toList → m = l) (fun _ => rfl)
      fun m hm => modify_eq_self h.wf hm
  | replaceFrame k frame version =>
    exact Call.settle_elim (P := fun m => m.toList = l.toList → m = l) (fun _ => rfl)
      fun m hm => modify_eq_self h.wf hm
  | remove k =>
    intro _
    refine erase_eq_self h.wf ?_
    rw [h.keys, List.mem_map]
    rintro ⟨e, he, hk⟩
    exact of_decide_eq_true (List.filter_eq_self.1 hc e he) hk
  | drain => exact fun hnil => h.wf.clear_eq (hnil.symm.trans (toList_clear l))

/-! ## Places -/

theorem nextPlace_insert {e : Exchange} (h : l.insert e = .ok m) :
    m.nextPlace = l.nextPlace + 1 := by
  rw [insert] at h
  split at h <;> cases h
  rfl

theorem nextPlace_modify (hl : l.WF) (h : l.modify k f = .ok m) : m.nextPlace = l.nextPlace := by
  obtain ⟨n, e, e', -, -, -, rfl⟩ := modify_inv hl h
  rfl

theorem nextPlace_erase (l : Ledger) (k : Key) : (l.erase k).nextPlace = l.nextPlace := by
  rw [erase]
  split <;> rfl

/-- A call uses one more place at most. -/
theorem Lists.nextPlace_run_le (h : Lists l xs) (c : Call) :
    (Call.run l c).2.nextPlace ≤ l.nextPlace + 1 := by
  have hle : l.nextPlace ≤ l.nextPlace + 1 := Nat.le_succ _
  cases c with
  | insert e =>
    exact Call.settle_elim (P := (·.nextPlace ≤ l.nextPlace + 1)) hle
      fun m hm => (nextPlace_insert hm).le
  | update k awaits frame =>
    exact Call.settle_elim (P := (·.nextPlace ≤ l.nextPlace + 1)) hle
      fun m hm => (nextPlace_modify h.wf hm).trans_le hle
  | replaceFrame k frame version =>
    exact Call.settle_elim (P := (·.nextPlace ≤ l.nextPlace + 1)) hle
      fun m hm => (nextPlace_modify h.wf hm).trans_le hle
  | remove k => exact (nextPlace_erase l k).trans_le hle
  | drain => exact hle

theorem Lists.nextPlace_inTurn_le (h : Lists l xs) (cs : List Call) :
    (Call.inTurn Call.run l cs).2.nextPlace ≤ l.nextPlace + cs.length := by
  induction cs generalizing l xs with
  | nil => exact Nat.le_refl _
  | cons c cs ih =>
    have hnext := h.nextPlace_run_le c
    have hlast := ih (h.run c).2
    rw [List.length_cons]
    exact Nat.le_trans hlast (by omega)

theorem Lists.insertionOrdered (h : Lists l xs) : InsertionOrdered l xs where
  wf := h.wf
  nodup := h.keys ▸ h.wf.nodup_keys
  toList := h.toList
  keys := h.keys
  size := by rw [← h.toList, Ledger.toList, List.length_map, Std.ExtTreeMap.length_toList, size]
  isEmpty := by rw [Bool.eq_iff_iff, isEmpty_iff, h.toList, List.isEmpty_iff]
  contains _ := by rw [h.wf.contains_iff, h.keys]
  get? := h.get?
  awaits? k := by rw [Ledger.awaits?, h.get?]
  unchanged _ := h.run_eq_self

end

theorem lists_empty : Lists empty [] := ⟨wf_empty, toList_empty⟩

/-- Over every history of calls a new ledger answers as a list does to which new exchanges are
appended. It stands for that list afterwards, and it has used no more places than calls were made,
so that a counter of `n` bits does for any history shorter than `2 ^ n`. -/
theorem insertionOrdered_after (cs : List Call) :
    (Call.inTurn Call.run empty cs).1 = (Call.inTurn Call.onList [] cs).1 ∧
      InsertionOrdered (Call.inTurn Call.run empty cs).2 (Call.inTurn Call.onList [] cs).2 ∧
      (Call.inTurn Call.run empty cs).2.nextPlace ≤ cs.length := by
  obtain ⟨hanswers, hlists⟩ := lists_empty.inTurn cs
  refine ⟨hanswers, hlists.insertionOrdered, ?_⟩
  simpa [empty] using lists_empty.nextPlace_inTurn_le cs

/-- An exchange that moves on stays in front of those that were started after it. -/
example :
    let first : Exchange := ⟨5, .outbound, .pubRec, .exactlyOnce, [0x34], .v5⟩
    let second : Exchange := ⟨2, .outbound, .pubAck, .atLeastOnce, [0x32], .v5⟩
    (Call.inTurn Call.run empty [.insert first, .insert second, .insert first,
        .update first.key .pubComp [0x62], .drain]).1 =
      [.done, .done, .refused (.identifierInUse 5), .done,
        .drained [{ first with awaits := .pubComp, frame := [0x62] }, second]] := by
  cbv

end Ledger

end Mqtt
