import Mqtt.Client.Operation
import Mqtt.Proofs.Session.IdPool
import Mqtt.Proofs.Success

/-!
# Running a reaction

`x.Runs c r acts c'` says that the reaction `x` takes the client `c` to `c'`, adding the actions
`acts` to those before and ending with `r`. The outcome of a reaction is read off its run
(`Runs.run_ok`, `Runs.run_error`).

The primitives have their runs below; a composite reaction runs by `Runs.bind` from the runs of its
parts. `Runs.guarded_error` and `Runs.holding_error` say what becomes of an error: the one reports
it, the other leaves the client as it was.
-/

namespace Mqtt

namespace Client

namespace Reaction

variable {α β : Type}

/-- The result of a reaction and the turn that it leaves. -/
def exec (x : Reaction α) (t : Turn) : Except Error α × Turn := (ExceptT.run x).run t

theorem exec_bind (x : Reaction α) (f : α → Reaction β) (t : Turn) :
    exec (x >>= f) t =
      match exec x t with
      | (.ok a, t) => exec (f a) t
      | (.error e, t) => (.error e, t) := by
  rcases hx : exec x t with ⟨e | a, t'⟩
  · exact Except.run_bind_error f hx
  · exact Except.run_bind_ok f hx

theorem exec_tryCatch (x : Reaction α) (f : Error → Reaction α) (t : Turn) :
    exec (tryCatch x f) t =
      match exec x t with
      | (.ok a, t) => (.ok a, t)
      | (.error e, t) => exec (f e) t := by
  rcases hx : exec x t with ⟨e | a, t'⟩
  · exact Except.run_tryCatch_error f hx
  · exact Except.run_tryCatch_ok f hx

/-- The reaction `x` takes `c` to `c'` with the result `r`, adding the actions `acts`. -/
def Runs (x : Reaction α) (c : Client) (r : Except Error α) (acts : List Action) (c' : Client) :
    Prop :=
  ∀ before : Array Action, exec x ⟨c, before⟩ = (r, ⟨c', before ++ acts.toArray⟩)

/-- The reaction `x` is refused, and the client stays as it is. -/
def Refuses (x : Reaction α) (c : Client) : Prop :=
  ∃ e acts, x.Runs c (.error e) acts c

/-- The reaction `x` is refused, or it runs with a result, actions and a client as `R` says. -/
def Settles (x : Reaction α) (c : Client) (R : α → List Action → Client → Prop) : Prop :=
  x.Refuses c ∨ ∃ a acts c', x.Runs c (.ok a) acts c' ∧ R a acts c'

variable {x : Reaction α} {c c' c'' : Client} {acts acts' : List Action} {e : Error}

/-! ## Composition -/

theorem Runs.cast {r : Except Error α} (h : x.Runs c r acts c') (ha : acts = acts')
    (hc : c' = c'') : x.Runs c r acts' c'' :=
  ha ▸ hc ▸ h

theorem runs_pure (a : α) : (pure a : Reaction α).Runs c (.ok a) [] c := fun before => by
  change (Except.ok a, (⟨c, before⟩ : Turn)) = _
  simp

theorem runs_throw (e : Error) : (throw e : Reaction α).Runs c (.error e) [] c := fun before => by
  change (Except.error e, (⟨c, before⟩ : Turn)) = _
  simp

/-- A computation outside the client. -/
theorem runs_lift (x : Except Error α) : (liftM x : Reaction α).Runs c x [] c := fun before => by
  change (x, (⟨c, before⟩ : Turn)) = _
  simp

theorem runs_lift_ok {x : Except Error α} {a : α} (h : x = .ok a) :
    (liftM x : Reaction α).Runs c (.ok a) [] c :=
  h ▸ runs_lift x

theorem runs_lift_error {x : Except Error α} (h : x = .error e) :
    (liftM x : Reaction α).Runs c (.error e) [] c :=
  h ▸ runs_lift x

theorem Runs.bind {f : α → Reaction β} {a : α} {r : Except Error β} (hx : x.Runs c (.ok a) acts c')
    (hf : (f a).Runs c' r acts' c'') : (x >>= f).Runs c r (acts ++ acts') c'' := fun before => by
  rw [exec_bind, hx before]
  simp only [hf _, Array.append_assoc, List.append_toArray]

theorem Runs.bind_error {f : α → Reaction β} (hx : x.Runs c (.error e) acts c') :
    (x >>= f).Runs c (.error e) acts c' := fun before => by
  rw [exec_bind, hx before]

theorem Runs.tryCatch_ok {f : Error → Reaction α} {a : α} (hx : x.Runs c (.ok a) acts c') :
    (tryCatch x f).Runs c (.ok a) acts c' := fun before => by
  rw [exec_tryCatch, hx before]

theorem Runs.tryCatch_error {f : Error → Reaction α} {r : Except Error α}
    (hx : x.Runs c (.error e) acts c') (hf : (f e).Runs c' r acts' c'') :
    (tryCatch x f).Runs c r (acts ++ acts') c'' := fun before => by
  rw [exec_tryCatch, hx before]
  simp only [hf _, Array.append_assoc, List.append_toArray]

theorem Runs.run_ok {a : α} (h : x.Runs c (.ok a) acts c') : x.run c = ⟨.ok a, acts, c'⟩ := by
  have h := h #[]
  unfold exec at h
  simp [run, h]

/-- A refused input has no actions. -/
theorem Runs.run_error (h : x.Runs c (.error e) acts c') : x.run c = ⟨.error e, [], c'⟩ := by
  have h := h #[]
  unfold exec at h
  simp [run, h]

theorem Runs.refuses (h : x.Runs c (.error e) acts c) : x.Refuses c := ⟨e, acts, h⟩

theorem Refuses.run (h : x.Refuses c) : ∃ e, x.run c = ⟨.error e, [], c⟩ := by
  obtain ⟨e, acts, h⟩ := h
  exact ⟨e, h.run_error⟩

section Settles

variable {R : α → List Action → Client → Prop} {S : β → List Action → Client → Prop}

theorem Runs.settles {a : α} (h : x.Runs c (.ok a) acts c') (hR : R a acts c') : x.Settles c R :=
  .inr ⟨a, acts, c', h, hR⟩

theorem Runs.settles_error (h : x.Runs c (.error e) acts c) : x.Settles c R := .inl h.refuses

/-- What is only read decides what is settled. -/
theorem Runs.bind_settles {f : α → Reaction β} {a : α} (hx : x.Runs c (.ok a) [] c)
    (hf : (f a).Settles c S) : (x >>= f).Settles c S := by
  rcases hf with ⟨e, acts, hf⟩ | ⟨b, acts, c', hf, hS⟩
  · exact (hx.bind hf).settles_error
  · exact (hx.bind hf).settles hS

theorem Settles.imp {S : α → List Action → Client → Prop} (hx : x.Settles c R)
    (hRS : ∀ a acts c', R a acts c' → S a acts c') : x.Settles c S :=
  hx.imp_right fun ⟨a, acts, c', hrun, hR⟩ => ⟨a, acts, c', hrun, hRS a acts c' hR⟩

theorem Settles.bind_pure {f : α → β} (hx : x.Settles c R)
    (hRS : ∀ a acts c', R a acts c' → S (f a) acts c') :
    (x >>= fun a => pure (f a)).Settles c S := by
  rcases hx with ⟨e, acts, hx⟩ | ⟨a, acts, c', hx, hR⟩
  · exact hx.bind_error.settles_error
  · have hrun : (x >>= fun a => pure (f a)).Runs c (.ok (f a)) (acts ++ []) c' :=
      hx.bind (runs_pure _)
    exact .inr ⟨f a, acts, c', hrun.cast (List.append_nil acts) rfl, hRS a acts c' hR⟩

end Settles

/-! ## Primitives -/

theorem runs_client : client.Runs c (.ok c) [] c := fun before => by
  change (Except.ok c, (⟨c, before⟩ : Turn)) = _
  simp

theorem runs_session : session.Runs c (.ok c.session) [] c := fun before => by
  change (Except.ok c.session, (⟨c, before⟩ : Turn)) = _
  simp

theorem runs_update (f : Client → Client) : (update f).Runs c (.ok ()) [] (f c) := fun before => by
  change (Except.ok (), (⟨f c, before⟩ : Turn)) = _
  simp

theorem runs_updateSession (f : Session → Session) :
    (updateSession f).Runs c (.ok ()) [] { c with session := f c.session } :=
  runs_update _

theorem runs_perform (a : Action) : (perform a).Runs c (.ok ()) [a] c := fun before => by
  change (Except.ok (), (⟨c, before.push a⟩ : Turn)) = _
  rw [Array.push_eq_append]

theorem runs_send (frame : Bytes) : (send frame).Runs c (.ok ()) [.send frame] c := runs_perform _

theorem runs_emit (v : Event) : (emit v).Runs c (.ok ()) [.emit v] c := runs_perform _

theorem runs_inSession {f : Session → Except Error (α × Session)} {a : α} {s : Session}
    (h : f c.session = .ok (a, s)) :
    (inSession f).Runs c (.ok a) [] { c with session := s } := by
  refine (runs_session.bind ?_).cast rfl rfl
  rw [h]
  exact (runs_lift _).bind ((runs_updateSession _).bind (runs_pure a))

theorem runs_inSession_error {f : Session → Except Error (α × Session)}
    (h : f c.session = .error e) : (inSession f).Runs c (.error e) [] c := by
  refine runs_session.bind ?_
  rw [h]
  exact (runs_lift _).bind_error

theorem runs_record {f : Session → Except Error (Change × Session)} {change : Change} {s : Session}
    (h : f c.session = .ok (change, s)) :
    (record f).Runs c (.ok ()) [.persist change] { c with session := s } :=
  (runs_inSession h).bind (runs_perform _)

/-! ## Errors -/

/-- An error is reported and ends the connection. -/
theorem Runs.guarded_error {x : Reaction Unit} (h : x.Runs c (.error e) acts c') :
    (guarded x).Runs c (.ok ()) (acts ++ [.emit (.error e), .close]) c' :=
  h.tryCatch_error ((runs_emit _).bind (runs_perform _))

theorem Runs.guarded {x : Reaction Unit} (h : x.Runs c (.ok ()) acts c') :
    (guarded x).Runs c (.ok ()) acts c' :=
  h.tryCatch_ok

theorem runs_requireConnected (h : c.isConnected) : requireConnected.Runs c (.ok ()) [] c := by
  refine runs_client.bind ?_
  simp only [h, Bool.not_true, Bool.false_eq_true, ↓reduceIte]
  exact runs_pure ()

theorem runs_requireConnected_error (h : c.isConnected = false) :
    requireConnected.Runs c (.error .notConnected) [] c := by
  refine runs_client.bind ?_
  simp only [h, Bool.not_false, ↓reduceIte]
  exact runs_throw _

variable {R : α → List Action → Client → Prop}

/-- What needs a connection is refused without one. -/
theorem settles_requireConnected {f : Unit → Reaction α} (h : c.isConnected → (f ()).Settles c R) :
    (requireConnected >>= f).Settles c R := by
  cases hconn : c.isConnected with
  | false => exact (runs_requireConnected_error hconn).bind_error.settles_error
  | true => exact (runs_requireConnected hconn).bind_settles (h hconn)

/-- What is refused under a condition. -/
theorem settles_unless {b : Prop} [Decidable b] {f : Unit → Reaction α}
    (h : ¬b → (f ()).Settles c R) :
    (if b then (throw e : Reaction Unit) >>= f else f ()).Settles c R := by
  split
  · exact (runs_throw e).bind_error.settles_error
  · exact h ‹_›

/-! ## Holding an identifier -/

section Holding

variable {asked : Option UInt16} {id : UInt16} {ids : IdPool} {y : UInt16 → Reaction α}

theorem runs_claim (h : c.session.ids.claim asked = .ok (id, ids)) :
    (inSession (·.claim asked)).Runs c (.ok id) []
      { c with session := { c.session with ids } } := by
  refine runs_inSession ?_
  rw [Session.claim, h]
  rfl

theorem Runs.holding {a : α} (h : c.session.ids.claim asked = .ok (id, ids))
    (hy : (y id).Runs { c with session := { c.session with ids } } (.ok a) acts c') :
    (holding asked y).Runs c (.ok a) acts c' :=
  (runs_claim h).bind hy.tryCatch_ok

/-- A refused request gives back exactly what it had claimed. -/
theorem Runs.holding_error (hids : c.session.ids.WF) (h : c.session.ids.claim asked = .ok (id, ids))
    (hy : (y id).Runs { c with session := { c.session with ids } } (.error e) acts
      { c with session := { c.session with ids } }) :
    (Reaction.holding asked y).Runs c (.error e) acts c := by
  refine ((runs_claim h).bind (hy.tryCatch_error ((runs_updateSession _).bind (runs_throw e)))).cast
    (by simp) ?_
  have hback := (IdPool.hands_of_claim hids h).release hids
  simp only [Session.discard, IdPool.discard_of_release hback]

theorem Settles.holding (hids : c.session.ids.WF)
    (h : c.session.ids.claim asked = .ok (id, ids))
    (hy : (y id).Settles { c with session := { c.session with ids } } R) :
    (Reaction.holding asked y).Settles c R := by
  rcases hy with ⟨e, acts, hy⟩ | ⟨a, acts, c', hy, hR⟩
  · exact (Runs.holding_error hids h hy).settles_error
  · exact (Runs.holding h hy).settles hR

theorem runs_holding_error (h : c.session.ids.claim asked = .error e) :
    (Reaction.holding asked y).Runs c (.error e) [] c := by
  refine (runs_inSession_error ?_).bind_error
  rw [Session.claim, h]
  rfl

end Holding

end Reaction

end Client

end Mqtt
