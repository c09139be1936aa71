import Mathlib.Data.List.Forall2
import Mqtt.Proofs.Session.Invariant

/-!
# Edits of a session

`Edit` lists the ways in which a session changes, each with the changes of the records that it
reports, and `Edits` puts them in a row. What holds of every edit holds of everything that a client
does: the invariant is kept (`Edits.wf`), and an exchange stays, in its order, until its end is
reported (`Edits.retains`).
-/

namespace Mqtt

namespace Session

/-- One change of a session, with what it reports. -/
inductive Edit (s : Session) : List Change → Session → Prop
  /-- Only times and the expiry change. -/
  | keep {t : Session} (hl : t.ledger = s.ledger) (hi : t.ids = s.ids)
      (hsub : t.subscribes = s.subscribes) (hunsub : t.unsubscribes = s.unsubscribes) : Edit s [] t
  | startOutbound {id : UInt16} {ids : IdPool} {e : Exchange} {l : Ledger}
      (hids : IdPool.Hands s.ids id ids) (hk : e.key = .outbound id) (hc : e.check = .ok ())
      (hl : Ledger.Started s.ledger e l) : Edit s [.started e] { s with ids, ledger := l }
  | startInbound {e : Exchange} {l : Ledger} (hd : e.direction = .inbound) (hc : e.check = .ok ())
      (hl : Ledger.Started s.ledger e l) : Edit s [.started e] { s with ledger := l }
  | move {e e' : Exchange} {l : Ledger} (hf : e.Follows e') (hc : e'.check = .ok ())
      (hl : Ledger.Moved s.ledger e e' l) : Edit s [.moved e'] { s with ledger := l }
  | complete {k : Key} (hk : k ∈ s.ledger.keys) : Edit s [.erase k] (s.complete k).2
  | purge : Edit s (s.ledger.keys.map .erase) s.purge.2
  | subscribe {id : UInt16} {ids : IdPool} (p : PendingSubscribe)
      (hids : IdPool.Hands s.ids id ids) : Edit s [] (trackSubscribe { s with ids } id p)
  | unsubscribe {id : UInt16} {ids : IdPool} (p : PendingUnsubscribe)
      (hids : IdPool.Hands s.ids id ids) : Edit s [] (trackUnsubscribe { s with ids } id p)
  | completeSubscribe (id : UInt16) : Edit s [] (s.completeSubscribe id).2
  | completeUnsubscribe (id : UInt16) : Edit s [] (s.completeUnsubscribe id).2
  | dropRequests : Edit s [] s.dropRequests

/-- Changes of a session in a row, with what they report. -/
inductive Edits : Session → List Change → Session → Prop
  | none (s : Session) : Edits s [] s
  | next {s t u : Session} {cs ds : List Change} (h : Edit s cs t) (hs : Edits t ds u) :
      Edits s (cs ++ ds) u

variable {s t u : Session} {cs ds : List Change}

theorem Edit.one (h : Edit s cs t) : Edits s cs t := by
  have := Edits.next h (.none t)
  rwa [List.append_nil] at this

/-- Times and the expiry are no part of the records. -/
theorem edit_times (s : Session) (x : Expiry) (a : Option Nat) :
    Edit s [] { s with expiry := x, endedAt := a } :=
  .keep rfl rfl rfl rfl

theorem Edits.trans (h : Edits s cs t) (hs : Edits t ds u) : Edits s (cs ++ ds) u := by
  induction h with
  | none => exact hs
  | next h _ ih =>
    rw [List.append_assoc]
    exact .next h (ih hs)

theorem restore_inv {e : Exchange} (h : s.restore e = .ok t) :
    ∃ ids l, t = { s with ids, ledger := l } ∧ s.ledger.insert e = .ok l ∧
      (e.direction = .inbound ∧ ids = s.ids ∨
        e.direction = .outbound ∧ s.ids.acquireSpecific e.id = .ok ids) := by
  obtain ⟨-, h⟩ := Except.unless_eq_ok_iff.1 h
  split at h <;> simp only [Except.bind_eq_ok_iff, Except.pure_eq_ok_iff] at h
  · obtain ⟨ids, hids, l, hl, rfl⟩ := h
    exact ⟨ids, l, rfl, hl, .inr ⟨‹_›, hids⟩⟩
  · obtain ⟨ids, rfl, l, hl, rfl⟩ := h
    exact ⟨s.ids, l, rfl, hl, .inl ⟨‹_›, rfl⟩⟩

/-- Taking in a record starts an exchange. -/
theorem edit_restore (hs : s.WF) {e : Exchange} (hc : e.check = .ok ()) (h : s.restore e = .ok t) :
    Edit s [.started e] t := by
  obtain ⟨ids, l, rfl, hl, ⟨hd, rfl⟩ | ⟨hd, hi⟩⟩ := restore_inv h
  · exact .startInbound hd hc (Ledger.started_of_insert hs.ledger hl)
  · have hk : e.key = .outbound e.id := Exchange.key_eq_outbound.2 ⟨rfl, hd⟩
    exact .startOutbound (IdPool.hands_of_acquireSpecific hs.ids hi) hk hc
      (Ledger.started_of_insert hs.ledger hl)

/-! ## The invariant -/

theorem Edit.wf (hs : s.WF) (h : Edit s cs t) : t.WF := by
  cases h with
  | keep hl hi hsub hunsub => exact hs.of_eq hl hi hsub hunsub
  | startOutbound hids hk hc hl => exact hs.start_outbound hids hl hk hc
  | startInbound hd hc hl => exact hs.start_inbound hl hd hc
  | move hf hc hl => exact hs.move hl hc
  | complete hk => exact hs.complete _
  | purge => exact wf_purge s
  | subscribe p hids => exact hs.trackSubscribe p hids
  | unsubscribe p hids => exact hs.trackUnsubscribe p hids
  | completeSubscribe id => exact hs.completeSubscribe id
  | completeUnsubscribe id => exact hs.completeUnsubscribe id
  | dropRequests => exact hs.dropRequests

theorem Edits.wf (hs : s.WF) (h : Edits s cs t) : t.WF := by
  induction h with
  | none => exact hs
  | next h _ ih => exact ih (h.wf hs)

/-! ## What stays -/

end Session

/-- `m` has the exchanges of `l` that `stays` selects, in their order and perhaps moved on, and
new ones behind them. -/
def Ledger.Retains (l : Ledger) (stays : Exchange → Bool) (m : Ledger) : Prop :=
  ∃ kept added, m.toList = kept ++ added ∧
    List.Forall₂ Exchange.Follows (l.toList.filter stays) kept

theorem Ledger.Retains.mem_keys {l m : Ledger} {stays : Exchange → Bool} (h : l.Retains stays m)
    {e : Exchange} (he : e ∈ l.toList) (hs : stays e) : e.key ∈ m.keys := by
  obtain ⟨kept, added, hm, hf⟩ := h
  have hkept : ∃ e' ∈ kept, e.Follows e' := by
    obtain ⟨i, hi, hget⟩ := List.getElem_of_mem (List.mem_filter.2 ⟨he, hs⟩)
    have hi' : i < kept.length := hf.length_eq ▸ hi
    refine ⟨kept[i], List.getElem_mem hi', ?_⟩
    rw [← hget]
    exact hf.get hi hi'
  obtain ⟨e', he', hfollows⟩ := hkept
  rw [← hfollows.key, Ledger.mem_keys]
  exact ⟨e', by rw [hm]; exact List.mem_append_left _ he', rfl⟩

namespace Session

variable {s t u : Session} {cs ds : List Change}

/-- Whether an exchange is not ended by changes. -/
def outlasts (cs : List Change) (e : Exchange) : Bool := .erase e.key ∉ cs

theorem forall₂_follows_refl (es : List Exchange) : List.Forall₂ Exchange.Follows es es :=
  List.forall₂_same.2 fun e _ => .refl e

theorem forall₂_follows_trans {as bs cs : List Exchange} (hab : List.Forall₂ Exchange.Follows as bs)
    (hbc : List.Forall₂ Exchange.Follows bs cs) : List.Forall₂ Exchange.Follows as cs := by
  induction hab generalizing cs with
  | nil => exact hbc
  | cons h _ ih =>
    cases hbc with
    | cons h' hbc => exact .cons (h.trans h') (ih hbc)

/-- Changes that end nothing leave every exchange. -/
theorem retains_of_toList {l m : Ledger} {added : List Exchange} {cs : List Change}
    (hcs : ∀ k, .erase k ∉ cs) (h : m.toList = l.toList ++ added) :
    l.Retains (outlasts cs) m := by
  refine ⟨l.toList, added, h, ?_⟩
  rw [List.filter_eq_self.2 fun e _ => by simpa [outlasts] using hcs e.key]
  exact forall₂_follows_refl _

theorem Edit.retains (hs : s.WF) (h : Edit s cs t) : s.ledger.Retains (outlasts cs) t.ledger := by
  have hsame : ∀ {m : Ledger}, m = s.ledger → s.ledger.Retains (outlasts []) m := by
    rintro m rfl
    exact retains_of_toList (by simp) (List.append_nil _).symm
  cases h with
  | keep hl hi hsub hunsub => exact hsame hl
  | startOutbound hids hk hc hl => exact retains_of_toList (by simp [Change.started]) hl.toList
  | startInbound hd hc hl => exact retains_of_toList (by simp [Change.started]) hl.toList
  | @move e e' l hf hc hl =>
    refine ⟨_, [], hl.toList.trans (List.append_nil _).symm, ?_⟩
    rw [List.filter_eq_self.2 fun x _ => by simp [outlasts, Change.moved]]
    refine List.forall₂_map_right_iff.2 (List.forall₂_same.2 fun x hx => ?_)
    split
    · rename_i hk
      rwa [hs.ledger.eq_of_key_eq hx hl.mem hk]
    · exact .refl x
  | @complete k hk =>
    refine ⟨_, [], ?_, forall₂_follows_refl _⟩
    rw [hs.complete_eq, if_pos hk, List.append_nil]
    refine (Ledger.toList_erase hs.ledger k).trans (List.filter_congr fun x _ => ?_)
    simp [outlasts]
  | purge =>
    refine ⟨[], [], by simp [Session.purge], ?_⟩
    rw [List.filter_eq_nil_iff.2 fun e he => ?_]
    · exact .nil
    · simpa [outlasts] using Ledger.mem_keys.2 ⟨e, he, rfl⟩
  | subscribe p hids => exact hsame rfl
  | unsubscribe p hids => exact hsame rfl
  | completeSubscribe id => exact hsame (ledger_completeSubscribe s id)
  | completeUnsubscribe id => exact hsame (ledger_completeUnsubscribe s id)
  | dropRequests => exact hsame (ledger_dropRequests s)

theorem outlasts_append (e : Exchange) :
    outlasts (cs ++ ds) e = (outlasts ds e && outlasts cs e) := by
  simp [outlasts, not_or, Bool.and_comm]

theorem outlasts_eq {e e' : Exchange} (h : e.Follows e') : outlasts cs e' = outlasts cs e := by
  rw [outlasts, outlasts, h.key]

/-- What outlasts two rows of changes outlasts the one and then the other. -/
theorem retains_trans {l m n : Ledger} (h : l.Retains (outlasts cs) m)
    (h' : m.Retains (outlasts ds) n) : l.Retains (outlasts (cs ++ ds)) n := by
  obtain ⟨kept, added, hm, hf⟩ := h
  obtain ⟨kept', added', hn, hf'⟩ := h'
  rw [hm, List.filter_append] at hf'
  have hkept := List.forall₂_take (kept.filter (outlasts ds)).length hf'
  rw [List.take_left] at hkept
  have hfilter : List.Forall₂ Exchange.Follows
      ((l.toList.filter (outlasts cs)).filter (outlasts ds)) (kept.filter (outlasts ds)) :=
    List.rel_filter (fun a b h => by simp only [outlasts_eq h]) hf
  refine ⟨kept'.take (kept.filter (outlasts ds)).length,
    kept'.drop (kept.filter (outlasts ds)).length ++ added', ?_, ?_⟩
  · rw [hn, ← List.append_assoc, List.take_append_drop]
  · rw [List.filter_congr fun e _ => outlasts_append e, ← List.filter_filter]
    exact forall₂_follows_trans hfilter hkept

/-- An exchange stays until its end is reported. -/
theorem Edits.retains (hs : s.WF) (h : Edits s cs t) : s.ledger.Retains (outlasts cs) t.ledger := by
  induction h with
  | none => exact retains_of_toList (by simp) (List.append_nil _).symm
  | next h _ ih => exact retains_trans (h.retains hs) (ih (h.wf hs))

end Session

end Mqtt
