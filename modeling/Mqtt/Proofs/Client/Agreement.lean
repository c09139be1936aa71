import Mqtt.Proofs.Client.Reaction
import Mqtt.Proofs.Session.Alike

/-!
# Reactions that are blind to places

Two clients are alike if they differ only in the places of their ledgers. A reaction is `Blind` if
it does the same with both: the same result, the same actions, and again two clients that are alike.
`Agree` compares two reactions, which is needed for what follows after the client was looked at.

The primitives are blind to places, and what is put together from blind reactions is blind
(`Agree.bind`, `Agree.tryCatch`).
-/

namespace Mqtt

namespace Client

/-- The clients are the same but for the places in their ledgers. -/
def Alike (c d : Client) : Prop :=
  ∃ l, c.session.ledger.Same l ∧ d = { c with session := { c.session with ledger := l } }

variable {c d : Client}

theorem Alike.session (h : c.Alike d) : c.session.Alike d.session := by
  obtain ⟨l, hl, rfl⟩ := h
  exact ⟨l, hl, rfl⟩

/-- What leaves the ledger alone keeps clients alike. -/
theorem Alike.map (h : c.Alike d) {f : Client → Client}
    (hf : ∀ c l, f { c with session := { c.session with ledger := l } } =
      { f c with session := { (f c).session with ledger := l } }) : (f c).Alike (f d) := by
  obtain ⟨l, hl, rfl⟩ := h
  have hledger : (f c).session.ledger = c.session.ledger := by
    have := congrArg (fun c : Client => c.session.ledger) (hf c c.session.ledger)
    exact this
  exact ⟨l, hledger ▸ hl, hf c l⟩

theorem Alike.withSession (h : c.Alike d) {s t : Session} (hst : s.Alike t) :
    Alike { c with session := s } { d with session := t } := by
  obtain ⟨_, -, rfl⟩ := h
  obtain ⟨l, hl, rfl⟩ := hst
  exact ⟨l, hl, rfl⟩

namespace Reaction

variable {α β : Type} {R : α → α → Prop} {S : β → β → Prop}

/-- The reactions do the same, the one with the one client and the other with the other: results
are related, actions equal and the clients afterwards alike. -/
def AgreeAt (R : α → α → Prop) (x y : Reaction α) (c d : Client) : Prop :=
  ∀ before : Array Action, ∃ r r' acts c' d', exec x ⟨c, before⟩ = (r, ⟨c', acts⟩) ∧
    exec y ⟨d, before⟩ = (r', ⟨d', acts⟩) ∧ Matches R r r' ∧ c'.Alike d'

/-- The reactions do the same with clients that are alike. -/
def Agree (R : α → α → Prop) (x y : Reaction α) : Prop := ∀ c d, c.Alike d → AgreeAt R x y c d

/-- The reaction does the same with clients that are alike. -/
def Blind (x : Reaction α) : Prop := Agree Eq x x

/-! ## Composition -/

theorem agree_pure {a b : α} (h : R a b) : Agree R (pure a) (pure b) :=
  fun c d hcd before => ⟨.ok a, .ok b, before, c, d, rfl, rfl, .ok h, hcd⟩

theorem blind_pure (a : α) : Blind (pure a) := agree_pure rfl

theorem blind_throw (e : Error) : Blind (throw e : Reaction α) :=
  fun c d hcd before => ⟨.error e, .error e, before, c, d, rfl, rfl, .error e, hcd⟩

/-- A computation outside the client. -/
theorem agree_lift {x y : Except Error α} (h : Matches R x y) :
    Agree R (liftM x : Reaction α) (liftM y) :=
  fun c d hcd before => ⟨x, y, before, c, d, rfl, rfl, h, hcd⟩

theorem blind_lift (x : Except Error α) : Blind (liftM x : Reaction α) := agree_lift (.refl x)

theorem AgreeAt.bind {x y : Reaction α} {f g : α → Reaction β} (h : AgreeAt R x y c d)
    (hfg : ∀ a b, R a b → Agree S (f a) (g b)) : AgreeAt S (x >>= f) (y >>= g) c d := by
  intro before
  obtain ⟨r, r', acts, c', d', hx, hy, hr, hcd⟩ := h before
  rw [exec_bind, hx, exec_bind, hy]
  cases hr with
  | ok h => exact hfg _ _ h c' d' hcd acts
  | error e => exact ⟨.error e, .error e, acts, c', d', rfl, rfl, .error e, hcd⟩

theorem Agree.bind {x y : Reaction α} {f g : α → Reaction β} (h : Agree R x y)
    (hfg : ∀ a b, R a b → Agree S (f a) (g b)) : Agree S (x >>= f) (y >>= g) :=
  fun c d hcd => (h c d hcd).bind hfg

/-- What is done first on either side may take clients that are not alike to clients that are. -/
theorem AgreeAt.of_runs {x y : Reaction α} {f g : α → Reaction β} {a b : α} {acts : List Action}
    {c' d' : Client} (hx : x.Runs c (.ok a) acts c') (hy : y.Runs d (.ok b) acts d')
    (h : AgreeAt S (f a) (g b) c' d') : AgreeAt S (x >>= f) (y >>= g) c d := by
  intro before
  rw [exec_bind, hx before, exec_bind, hy before]
  exact h (before ++ acts.toArray)

theorem Blind.bind {x : Reaction α} {f : α → Reaction β} (hx : x.Blind) (hf : ∀ a, (f a).Blind) :
    (x >>= f).Blind :=
  Agree.bind hx fun a _ hab => hab ▸ hf a

theorem Blind.map {x : Reaction α} (hx : x.Blind) (f : α → β) : (f <$> x).Blind := by
  rw [map_eq_pure_bind]
  exact hx.bind fun a => blind_pure (f a)

theorem AgreeAt.tryCatch {x y : Reaction α} {f g : Error → Reaction α} (h : AgreeAt R x y c d)
    (hfg : ∀ e, Agree R (f e) (g e)) : AgreeAt R (tryCatch x f) (tryCatch y g) c d := by
  intro before
  obtain ⟨r, r', acts, c', d', hx, hy, hr, hcd⟩ := h before
  rw [exec_tryCatch, hx, exec_tryCatch, hy]
  cases hr with
  | ok h => exact ⟨.ok _, .ok _, acts, c', d', rfl, rfl, .ok h, hcd⟩
  | error e => exact hfg e c' d' hcd acts

theorem Agree.tryCatch {x y : Reaction α} {f g : Error → Reaction α} (h : Agree R x y)
    (hfg : ∀ e, Agree R (f e) (g e)) : Agree R (tryCatch x f) (tryCatch y g) :=
  fun c d hcd => (h c d hcd).tryCatch hfg

theorem blind_ite {p : Prop} [Decidable p] {x y : Reaction α} (hx : x.Blind) (hy : y.Blind) :
    (if p then x else y).Blind := by
  split
  · exact hx
  · exact hy

theorem blind_forM {γ : Type} {f : γ → Reaction Unit} (hf : ∀ a, (f a).Blind) (xs : List γ) :
    (xs.forM f).Blind := by
  induction xs with
  | nil => exact blind_pure ()
  | cons a xs ih => exact (hf a).bind fun _ => ih

/-- What the outcomes have in common. -/
theorem AgreeAt.run {x y : Reaction α} (h : AgreeAt Eq x y c d) :
    (x.run c).result = (y.run d).result ∧ (x.run c).actions = (y.run d).actions ∧
      (x.run c).client.Alike (y.run d).client := by
  obtain ⟨r, r', acts, c', d', hx, hy, hr, hcd⟩ := h #[]
  obtain rfl := hr.eq
  unfold exec at hx hy
  rw [Reaction.run, hx, Reaction.run, hy]
  cases r with
  | ok a => exact ⟨rfl, rfl, hcd⟩
  | error e => exact ⟨rfl, rfl, hcd⟩

/-! ## Primitives -/

theorem agree_client : Agree Alike client client :=
  fun c d hcd before => ⟨.ok c, .ok d, before, c, d, rfl, rfl, .ok hcd, hcd⟩

theorem agree_session : Agree Session.Alike session session :=
  fun c d hcd before => ⟨.ok c.session, .ok d.session, before, c, d, rfl, rfl, .ok hcd.session, hcd⟩

/-- Whatever is read off the client, apart from the ledger, is the same. -/
theorem blind_client {f : Client → Reaction α}
    (h : ∀ c l, c.session.ledger.Same l →
      Agree Eq (f c) (f { c with session := { c.session with ledger := l } })) :
    (client >>= f).Blind :=
  agree_client.bind fun c d hcd => by
    obtain ⟨l, hl, rfl⟩ := hcd
    exact h c l hl

theorem blind_session {f : Session → Reaction α} (h : ∀ s t, s.Alike t → Agree Eq (f s) (f t)) :
    (session >>= f).Blind :=
  agree_session.bind h

theorem agree_update {f g : Client → Client} (h : ∀ c d, c.Alike d → (f c).Alike (g d)) :
    Agree Eq (update f) (update g) :=
  fun c d hcd before => ⟨.ok (), .ok (), before, f c, g d, rfl, rfl, .ok rfl, h c d hcd⟩

theorem agree_updateSession {f g : Session → Session} (h : ∀ s t, s.Alike t → (f s).Alike (g t)) :
    Agree Eq (updateSession f) (updateSession g) :=
  agree_update fun c d hcd => hcd.withSession (h c.session d.session hcd.session)

theorem blind_update {f : Client → Client}
    (hf : ∀ c l, f { c with session := { c.session with ledger := l } } =
      { f c with session := { (f c).session with ledger := l } }) : (update f).Blind :=
  agree_update fun _ _ hcd => hcd.map hf

theorem blind_updateSession {f : Session → Session}
    (hf : ∀ s l, f { s with ledger := l } = { f s with ledger := l }) : (updateSession f).Blind :=
  agree_updateSession fun _ _ hst => hst.map hf

theorem blind_perform (a : Action) : (perform a).Blind :=
  fun c d hcd before => ⟨.ok (), .ok (), before.push a, c, d, rfl, rfl, .ok rfl, hcd⟩

theorem blind_send (frame : Bytes) : (send frame).Blind := blind_perform _

theorem blind_emit (v : Event) : (emit v).Blind := blind_perform _

theorem blind_inSession {f : Session → Except Error (α × Session)}
    (h : ∀ s t, s.Alike t → Matches Session.AlikeWith (f s) (f t)) : (inSession f).Blind :=
  blind_session fun s t hst => (agree_lift (h s t hst)).bind fun _ _ hab => by
    obtain ⟨a, hafter⟩ := hab
    exact (agree_updateSession fun _ _ _ => hafter).bind fun _ _ _ => blind_pure a

theorem blind_record {f : Session → Except Error (Change × Session)}
    (h : ∀ s t, s.Alike t → Matches Session.AlikeWith (f s) (f t)) : (record f).Blind :=
  (blind_inSession h).bind fun _ => blind_perform _

theorem blind_complete (k : Key) : (complete k).Blind :=
  blind_session fun s t hst => by
    have hafter := hst.complete k
    generalize s.complete k = a, t.complete k = b at hafter
    obtain ⟨change, hafter⟩ := hafter
    refine (agree_updateSession fun _ _ _ => hafter).bind fun _ _ _ => ?_
    cases change with
    | some change => exact blind_perform _
    | none => exact blind_pure ()

theorem blind_purge : purge.Blind :=
  blind_session fun s t hst => by
    have hafter := hst.purge
    generalize s.purge = a, t.purge = b at hafter
    obtain ⟨changes, hafter⟩ := hafter
    exact (agree_updateSession fun _ _ _ => hafter).bind fun _ _ _ =>
      blind_forM (fun _ => blind_perform _) changes

theorem blind_resend (k : Key) : (resend k).Blind :=
  blind_session fun s t hst => by
    rw [hst.ledger.get? k]
    cases t.ledger.get? k with
    | some e => exact blind_send e.frame
    | none => exact blind_throw _

theorem blind_requireConnected : requireConnected.Blind :=
  blind_client fun _ _ _ => blind_ite (blind_throw _) (blind_pure ())

theorem Blind.requiring {f : Unit → Reaction α} (h : (f ()).Blind) :
    (requireConnected >>= f).Blind :=
  blind_requireConnected.bind fun _ => h

theorem Blind.holding {y : UInt16 → Reaction α} (hy : ∀ id, (y id).Blind) (asked : Option UInt16) :
    (holding asked y).Blind :=
  (blind_inSession fun _ _ hst => hst.claim asked).bind fun id => (hy id).tryCatch fun e =>
    (blind_updateSession fun _ _ => rfl).bind fun _ => blind_throw e

theorem Blind.guarded {x : Reaction Unit} (hx : x.Blind) : (guarded x).Blind :=
  hx.tryCatch fun _ => (blind_emit _).bind fun _ => blind_perform _

theorem blind_trackInbound (id : UInt16) (reason : Reason) : (trackInbound id reason).Blind :=
  blind_client fun _ _ _ => (blind_lift _).bind fun _ => (blind_lift _).bind fun e =>
    (blind_record fun _ _ hst => hst.track e).bind fun _ => blind_send _

theorem blind_releaseOutbound (id : UInt16) (reason : Reason) :
    (releaseOutbound id reason).Blind :=
  blind_client fun _ _ _ => (blind_lift _).bind fun frame =>
    (blind_record fun _ _ hst => hst.advance (.outbound id) .pubComp frame).bind fun _ =>
      blind_send frame

theorem blind_sendAck (kind : AckKind) (id : UInt16) (reason : Reason) :
    (sendAck kind id reason).Blind :=
  blind_client fun _ _ _ => (blind_lift _).bind fun frame => blind_send frame

end Reaction

end Client

end Mqtt
