import Mqtt.Proofs.Session.InsertionOrder
import Mqtt.Proofs.Session.Invariant

/-!
# Sessions that differ in places only

The places that a ledger gives to its exchanges are its own affair: ledgers with the same list of
exchanges (`Ledger.Same`) answer alike and stay the same under every operation. The sessions that
have them, and nothing else apart, are alike (`Session.Alike`).
-/

namespace Mqtt

/-! ## Ledgers -/

namespace Ledger

/-- The ledgers have the same exchanges in the same order, in whatever places. -/
structure Same (l m : Ledger) : Prop where
  left : l.WF
  right : m.WF
  toList : l.toList = m.toList

variable {l m : Ledger}

theorem Same.keys (h : Same l m) : l.keys = m.keys := by
  rw [Ledger.keys, h.toList, Ledger.keys]

theorem Same.get? (h : Same l m) (k : Key) : l.get? k = m.get? k := by
  ext e
  rw [h.left.get?_eq_some_iff, h.right.get?_eq_some_iff, h.toList]

theorem Same.awaits? (h : Same l m) (k : Key) : l.awaits? k = m.awaits? k := by
  rw [Ledger.awaits?, h.get? k, Ledger.awaits?]

theorem Same.contains (h : Same l m) (k : Key) : l.contains k = m.contains k := by
  rw [Bool.eq_iff_iff, h.left.contains_iff, h.right.contains_iff, h.keys]

theorem Same.isEmpty (h : Same l m) : l.isEmpty = m.isEmpty := by
  rw [Bool.eq_iff_iff, isEmpty_iff, isEmpty_iff, h.toList]

theorem Same.clear (l m : Ledger) : Same l.clear m.clear :=
  ⟨wf_clear l, wf_clear m, by rw [toList_clear, toList_clear]⟩

theorem Same.erase (h : Same l m) (k : Key) : Same (l.erase k) (m.erase k) :=
  ⟨wf_erase h.left k, wf_erase h.right k, by
    rw [toList_erase h.left, toList_erase h.right, h.toList]⟩

/-- What matches on one list matches on the ledgers that stand for it. -/
theorem same_of_lists {x y : Except Error Ledger} {z : Except Error (List Exchange)}
    (hx : Matches Lists x z) (hy : Matches Lists y z) : Matches Same x y := by
  cases hx with
  | ok hl =>
    cases hy with
    | ok hm => exact .ok ⟨hl.wf, hm.wf, hl.toList.trans hm.toList.symm⟩
  | error e =>
    cases hy
    exact .error e

theorem Same.lists_left (h : Same l m) : Lists l m.toList := ⟨h.left, h.toList⟩

theorem Same.lists_right (h : Same l m) : Lists m m.toList := ⟨h.right, rfl⟩

theorem Same.insert (h : Same l m) (e : Exchange) : Matches Same (l.insert e) (m.insert e) :=
  same_of_lists (h.lists_left.insert e) (h.lists_right.insert e)

theorem Same.update (h : Same l m) (k : Key) (awaits : PacketType) (frame : Bytes) :
    Matches Same (l.update k awaits frame) (m.update k awaits frame) :=
  same_of_lists (h.lists_left.update k awaits frame) (h.lists_right.update k awaits frame)

theorem Same.replaceFrame (h : Same l m) (k : Key) (frame : Bytes) (version : Version) :
    Matches Same (l.replaceFrame k frame version) (m.replaceFrame k frame version) :=
  same_of_lists (h.lists_left.replaceFrame k frame version)
    (h.lists_right.replaceFrame k frame version)

end Ledger

/-! ## Sessions -/

namespace Session

/-- The sessions are the same but for the places in their ledgers. -/
def Alike (s t : Session) : Prop := ∃ l, s.ledger.Same l ∧ t = { s with ledger := l }

/-- The sessions are alike, and what goes with them is equal. -/
inductive AlikeWith {α : Type} : α × Session → α × Session → Prop
  | mk (a : α) {s t : Session} (h : s.Alike t) : AlikeWith (a, s) (a, t)

variable {s t : Session}

theorem Alike.ledger (h : s.Alike t) : s.ledger.Same t.ledger := by
  obtain ⟨l, hl, rfl⟩ := h
  exact hl

/-- What leaves the ledger alone keeps sessions alike. -/
theorem Alike.map (h : s.Alike t) {f : Session → Session}
    (hf : ∀ s l, f { s with ledger := l } = { f s with ledger := l }) : (f s).Alike (f t) := by
  obtain ⟨l, hl, rfl⟩ := h
  have hledger : (f s).ledger = s.ledger := by
    have := congrArg Session.ledger (hf s s.ledger)
    exact this
  exact ⟨l, hledger ▸ hl, hf s l⟩

theorem Alike.withLedger (h : s.Alike t) {l m : Ledger} (hlm : l.Same m) :
    Alike { s with ledger := l } { t with ledger := m } := by
  obtain ⟨_, -, rfl⟩ := h
  exact ⟨m, hlm, rfl⟩

theorem Alike.discard (h : s.Alike t) (id : UInt16) : (s.discard id).Alike (t.discard id) :=
  h.map (f := (·.discard id)) fun _ _ => rfl

theorem dropRequests_withLedger (s : Session) (l : Ledger) :
    { s with ledger := l }.dropRequests = { s.dropRequests with ledger := l } := by
  rw [dropRequests_eq, dropRequests_eq]
  rfl

theorem Alike.isEmpty (h : s.Alike t) : s.isEmpty = t.isEmpty := by
  obtain ⟨l, hl, rfl⟩ := h
  rw [Session.isEmpty, hl.isEmpty, Session.isEmpty]

theorem Alike.claim (h : s.Alike t) (asked : Option UInt16) :
    Matches AlikeWith (s.claim asked) (t.claim asked) := by
  obtain ⟨l, hl, rfl⟩ := h
  exact (Matches.refl (s.ids.claim asked)).bind fun a _ hab =>
    hab ▸ .ok (.mk a.1 ⟨l, hl, rfl⟩)

/-! ### Exchanges -/

theorem Alike.track (h : s.Alike t) (e : Exchange) :
    Matches AlikeWith (s.track e) (t.track e) :=
  (h.ledger.insert e).bind fun _ _ hlm => .ok (.mk _ (h.withLedger hlm))

theorem Alike.moved (h : s.Alike t) (k : Key) : s.moved k = t.moved k := by
  rw [Session.moved, h.ledger.get? k, Session.moved]

/-- A changed exchange is reported from either ledger. -/
theorem Alike.report (h : s.Alike t) {l m : Ledger} (hlm : l.Same m) (k : Key) :
    Matches AlikeWith
      (do return (← { s with ledger := l }.moved k, { s with ledger := l }) :
        Except Error (Change × Session))
      (do return (← { t with ledger := m }.moved k, { t with ledger := m })) := by
  have hst := h.withLedger hlm
  rw [hst.moved k]
  exact (Matches.refl _).bind fun a _ hab => hab ▸ .ok (.mk a hst)

theorem Alike.advance (h : s.Alike t) (k : Key) (awaits : PacketType) (frame : Bytes) :
    Matches AlikeWith (s.advance k awaits frame) (t.advance k awaits frame) :=
  (h.ledger.update k awaits frame).bind fun _ _ hlm => h.report hlm k

theorem Alike.reencode (h : s.Alike t) (k : Key) (frame : Bytes) (version : Version) :
    Matches AlikeWith (s.reencode k frame version) (t.reencode k frame version) :=
  (h.ledger.replaceFrame k frame version).bind fun _ _ hlm => h.report hlm k

theorem Alike.complete (h : s.Alike t) (k : Key) : AlikeWith (s.complete k) (t.complete k) := by
  have hst := h.withLedger (h.ledger.erase k)
  rw [Session.complete, h.ledger.contains k, Session.complete]
  split
  · dsimp only
    split
    · exact .mk _ (hst.discard k.id)
    · exact .mk _ hst
  · exact .mk _ h

theorem Alike.purge (h : s.Alike t) : AlikeWith s.purge t.purge := by
  rw [Session.purge, h.ledger.keys, Session.purge]
  obtain ⟨l, hl, rfl⟩ := h
  exact .mk _ ⟨l.clear, Ledger.Same.clear _ _, rfl⟩

theorem Alike.restore (h : s.Alike t) (e : Exchange) :
    Matches Alike (s.restore e) (t.restore e) := by
  have hids : s.ids = t.ids := by
    obtain ⟨_, -, rfl⟩ := h
    rfl
  have hinsert : ∀ ids, Matches Alike
      (do return { s with ids, ledger := ← s.ledger.insert e } : Except Error Session)
      (do return { t with ids, ledger := ← t.ledger.insert e }) := by
    refine fun ids => (h.ledger.insert e).bind fun l m hlm => .ok ?_
    obtain ⟨_, -, rfl⟩ := h
    exact ⟨m, hlm, rfl⟩
  rw [Session.restore, h.ledger.contains e.key, Session.restore, hids]
  split
  · exact .error _
  · cases e.direction with
    | outbound => exact (Matches.refl _).bind fun ids _ heq => heq ▸ hinsert ids
    | inbound => exact hinsert t.ids

/-! ### Requests -/

theorem Alike.completeSubscribe (h : s.Alike t) (id : UInt16) :
    AlikeWith (s.completeSubscribe id) (t.completeSubscribe id) := by
  obtain ⟨l, hl, rfl⟩ := h
  unfold Session.completeSubscribe
  dsimp only
  split
  · exact .mk _ ⟨l, hl, rfl⟩
  · exact .mk _ ⟨l, hl, rfl⟩

theorem Alike.completeUnsubscribe (h : s.Alike t) (id : UInt16) :
    AlikeWith (s.completeUnsubscribe id) (t.completeUnsubscribe id) := by
  obtain ⟨l, hl, rfl⟩ := h
  unfold Session.completeUnsubscribe
  dsimp only
  split
  · exact .mk _ ⟨l, hl, rfl⟩
  · exact .mk _ ⟨l, hl, rfl⟩

end Session

end Mqtt
