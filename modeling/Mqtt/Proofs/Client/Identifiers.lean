import Mqtt.Proofs.Client.Edits

/-!
# The ownership of identifiers

However a client is used, the identifiers that its pool holds are those in use, and each has one
use: `identifiers_owned`. So an identifier that is handed out is never in use already, and every
identifier that is taken back is held at that time, which is what `Session.Balanced` says of the
places where that happens.
-/

namespace Mqtt

namespace Session

/-- Wherever a session takes identifiers back, they are held. -/
structure Balanced (s : Session) : Prop where
  /-- A published message comes to its end. -/
  complete : ∀ k ∈ s.ledger.keys, k.direction = .outbound →
    s.ids.release k.id = .ok (s.complete k).2.ids
  /-- A SUBSCRIBE is answered. -/
  completeSubscribe : ∀ id ∈ s.subscribes,
    s.ids.release id = .ok (s.completeSubscribe id).2.ids
  /-- An UNSUBSCRIBE is answered. -/
  completeUnsubscribe : ∀ id ∈ s.unsubscribes,
    s.ids.release id = .ok (s.completeUnsubscribe id).2.ids
  /-- The connection ends before requests are answered. -/
  dropRequests :
    (s.subscribes.keys ++ s.unsubscribes.keys).foldlM IdPool.release s.ids = .ok s.dropRequests.ids
  /-- A request is refused after it was given an identifier. -/
  refused : ∀ asked id ids, s.ids.claim asked = .ok (id, ids) → ids.release id = .ok s.ids

variable {s : Session}

/-- What is held can be taken back. -/
theorem WF.release_eq_discard (hs : s.WF) {use : Use} {id : UInt16} (h : s.uses use id) :
    s.ids.release id = .ok (s.ids.discard id) := by
  obtain ⟨ids, hids, -⟩ := IdPool.release_eq_ok hs.ids (hs.isHeld h)
  rw [hids, IdPool.discard_of_release hids]

theorem WF.balanced (hs : s.WF) : s.Balanced where
  complete k hk hd := by
    have huse : s.uses .publish k.id := by
      have hkey : Key.outbound k.id = k := by rw [Key.outbound, ← hd]
      rw [uses, hkey]
      exact hk
    rw [hs.release_eq_discard huse, hs.complete_eq, if_pos hk]
    simp only [hd, ↓reduceIte]
  completeSubscribe id hid := by
    have huse : s.uses .subscribe id := hid
    obtain ⟨p, hp⟩ := Option.isSome_iff_exists.1 (Std.ExtTreeMap.mem_iff_isSome_getElem?.1 hid)
    rw [hs.release_eq_discard huse, Session.completeSubscribe, hp]
    rfl
  completeUnsubscribe id hid := by
    have huse : s.uses .unsubscribe id := hid
    obtain ⟨p, hp⟩ := Option.isSome_iff_exists.1 (Std.ExtTreeMap.mem_iff_isSome_getElem?.1 hid)
    rw [hs.release_eq_discard huse, Session.completeUnsubscribe, hp]
    rfl
  dropRequests := by
    obtain ⟨ids, hids, hdiscard, -⟩ := IdPool.release_all hs.ids hs.nodup_requestIds fun id hid =>
      (mem_requestIds.1 hid).elim hs.isHeld hs.isHeld
    rw [dropRequests_eq, hdiscard]
    exact hids
  refused asked id ids h := (IdPool.hands_of_claim hs.ids h).release hs.ids

/-- An identifier that is handed out has no use yet. -/
theorem WF.not_uses_of_claim (hs : s.WF) {asked : Option UInt16} {id : UInt16} {ids : IdPool}
    (h : s.ids.claim asked = .ok (id, ids)) (use : Use) : ¬s.uses use id := by
  intro huse
  have hheld := hs.isHeld huse
  rw [(IdPool.hands_of_claim hs.ids h).fresh] at hheld
  cases hheld

end Session

namespace Client

/-- Whatever happens to a client: an identifier is held exactly if it is in use, for an outbound
exchange or for a request; it has one use only; requests wait only while there is a connection; an
identifier that is handed out is not in use; and what is taken back is held. -/
theorem identifiers_owned (options : ClientOptions) (ops : List Op) :
    let c := (new options).after ops
    (∀ id, c.session.ids.isHeld id ↔
      .outbound id ∈ c.session.ledger.keys ∨ id ∈ c.session.subscribes ∨
        id ∈ c.session.unsubscribes) ∧
    (c.session.ledger.keys.Nodup ∧
      ∀ (use use' : Session.Use) (id : UInt16),
        c.session.uses use id → c.session.uses use' id → use = use') ∧
    (c.isConnected = false → c.session.subscribes = ∅ ∧ c.session.unsubscribes = ∅) ∧
    (∀ (asked : Option UInt16) (id : UInt16) (ids : IdPool),
      c.session.ids.claim asked = .ok (id, ids) → ∀ use, ¬c.session.uses use id) ∧
    c.session.Balanced := by
  intro c
  have hc : c.WF := wf_after (wf_new options) ops
  refine ⟨fun id => ?_, ⟨hc.session.ledger.nodup_keys, fun _ _ _ => hc.session.use_unique⟩,
    fun hconn => ⟨(hc.idle hconn).1, (hc.idle hconn).2⟩,
    fun _ _ _ h => hc.session.not_uses_of_claim h, hc.session.balanced⟩
  rw [hc.session.isHeld_iff]
  constructor
  · rintro ⟨use, huse⟩
    cases use with
    | publish => exact .inl huse
    | subscribe => exact .inr (.inl huse)
    | unsubscribe => exact .inr (.inr huse)
  · rintro (h | h | h)
    · exact ⟨.publish, h⟩
    · exact ⟨.subscribe, h⟩
    · exact ⟨.unsubscribe, h⟩

end Client

end Mqtt
