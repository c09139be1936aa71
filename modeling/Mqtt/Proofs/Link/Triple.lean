import Mqtt.Link.Operation
import Mqtt.Proofs.Success

/-!
# Triples for tasks

`Triple P x Q E` says what the task `x` does to a turn as in `P`: it leaves one as in `Q`, or as in
`E` if it ends with an error. What a failed task has done stays done, so an error has a condition of
its own. There is a rule for each way of putting tasks together; `Leads` is the same for what never
fails, in which a failed task is only looked at.

Where the turn is known, `exec` says what a task does to it, line by line.
-/

namespace Mqtt

namespace Link

namespace Task

variable {α β : Type}

/-- The result of a task and the turn that it leaves. -/
def exec (x : Task α) (t : Turn) : Except Error α × Turn := (ExceptT.run x).run t

section Exec

variable {x : Task α} {t t' : Turn}

theorem exec_bind_ok {f : α → Task β} {a : α} (h : exec x t = (.ok a, t')) :
    exec (x >>= f) t = exec (f a) t' :=
  Except.run_bind_ok f h

theorem exec_bind_error {f : α → Task β} {e : Error} (h : exec x t = (.error e, t')) :
    exec (x >>= f) t = (.error e, t') :=
  Except.run_bind_error f h

theorem exec_tryCatch_ok {f : Error → Task α} {a : α} (h : exec x t = (.ok a, t')) :
    exec (tryCatch x f) t = (.ok a, t') :=
  Except.run_tryCatch_ok f h

theorem exec_tryCatch_error {f : Error → Task α} {e : Error} (h : exec x t = (.error e, t')) :
    exec (tryCatch x f) t = exec (f e) t' :=
  Except.run_tryCatch_error f h

theorem exec_map (f : α → β) (x : Task α) (t : Turn) :
    exec (f <$> x) t = ((exec x t).1.map f, (exec x t).2) := by
  rw [map_eq_pure_bind]
  rcases hx : exec x t with ⟨e | a, u⟩
  · exact exec_bind_error hx
  · exact exec_bind_ok hx

theorem exec_link (f : Link → Task α) (t : Turn) : exec (link >>= f) t = exec (f t.link) t := rfl

theorem exec_client (f : Client → Task α) (t : Turn) :
    exec (client >>= f) t = exec (f t.link.client) t := rfl

theorem exec_update (g : Link → Link) (f : Unit → Task α) (t : Turn) :
    exec (update g >>= f) t = exec (f ()) { t with link := g t.link } := rfl

theorem exec_note (y : Traffic) (f : Unit → Task α) (t : Turn) :
    exec (note y >>= f) t = exec (f ()) { t with traffic := t.traffic.push y } := rfl

/-- What an answer of the client yields, and the turn that it leaves. -/
theorem exec_ask (y : Client.Reaction α) (t : Turn) : exec (ask y) t =
    ((y.run t.link.client).result.map fun a => (a, (y.run t.link.client).actions),
      { t with link := { t.link with client := (y.run t.link.client).client } }) := by
  rw [ask, exec_client]
  rcases y.run t.link.client with ⟨e | a, acts, c⟩ <;> rfl

/-- An operation is a task that starts from a fresh turn. -/
theorem step_of_exec {l : Link} (op : Op) {r : Except Error Reply}
    (h : exec op.perform { link := l } = (r, t)) :
    l.step op = ⟨r, t.traffic.toList, t.changes.toList, t.link⟩ := by
  rw [Link.step, show op.perform.run.run { link := l } = (r, t) from h]

end Exec

/-- From a turn as in `P` the task leaves one as in `Q`, or one as in `E` and an error. -/
def Triple (P : Turn → Prop) (x : Task α) (Q : α → Turn → Prop) (E : Turn → Prop) : Prop :=
  ∀ t, P t → match exec x t with
    | (.ok a, t) => Q a t
    | (.error _, t) => E t

/-- From a turn as in `P` the computation leaves one as in `Q`. -/
def Leads (P : Turn → Prop) (x : StateM Turn α) (Q : Turn → Prop) : Prop :=
  ∀ t, P t → Q (x.run t).2

variable {P P' E E' R : Turn → Prop} {Q Q' : α → Turn → Prop} {S : β → Turn → Prop} {x : Task α}

theorem Triple.imp (h : Triple P x Q E) (hP : ∀ t, P' t → P t) (hQ : ∀ a t, Q a t → Q' a t)
    (hE : ∀ t, E t → E' t) : Triple P' x Q' E' := by
  intro t ht
  have := h t (hP t ht)
  rcases hx : exec x t with ⟨e | a, t'⟩ <;> rw [hx] at this
  · exact hE t' this
  · exact hQ a t' this

theorem Triple.pre (h : Triple P x Q E) (hP : ∀ t, P' t → P t) : Triple P' x Q E :=
  h.imp hP (fun _ _ => id) fun _ => id

theorem Triple.post (h : Triple P x Q E) (hQ : ∀ a t, Q a t → Q' a t) : Triple P x Q' E :=
  h.imp (fun _ => id) hQ fun _ => id

theorem Triple.bind {f : α → Task β} (hx : Triple P x Q E) (hf : ∀ a, Triple (Q a) (f a) S E) :
    Triple P (x >>= f) S E := by
  intro t ht
  have h := hx t ht
  rcases hrun : exec x t with ⟨e | a, t'⟩ <;> rw [hrun] at h
  · rw [exec_bind_error hrun]
    exact h
  · rw [exec_bind_ok hrun]
    exact hf a t' h

theorem Triple.catching {f : Error → Task α} (hx : Triple P x Q E')
    (hf : ∀ e, Triple E' (f e) Q E) : Triple P (tryCatch x f) Q E := by
  intro t ht
  have h := hx t ht
  rcases hrun : exec x t with ⟨e | a, t'⟩ <;> rw [hrun] at h
  · rw [exec_tryCatch_error hrun]
    exact hf e t' h
  · rw [exec_tryCatch_ok hrun]
    exact h

theorem triple_pure {a : α} (h : ∀ t, P t → Q a t) : Triple P (pure a) Q E := h

theorem triple_throw {e : Error} (h : ∀ t, P t → E t) : Triple P (throw e : Task α) Q E := h

/-- A computation that does not look at the link. -/
theorem triple_lift {y : Except Error α} (hQ : ∀ a t, P t → Q a t) (hE : ∀ t, P t → E t) :
    Triple P (liftM y : Task α) Q E := by
  intro t ht
  rw [show exec (liftM y : Task α) t = (y, t) from rfl]
  cases y with
  | error e => exact hE t ht
  | ok a => exact hQ a t ht

/-- What is known of the task of an operation, as its outcome. -/
theorem Triple.step {l : Link} {op : Op} {Q : Reply → Turn → Prop} (h : Triple P op.perform Q E)
    (hl : P { link := l }) :
    ∃ t : Turn, (l.step op).link = t.link ∧ (l.step op).traffic = t.traffic.toList ∧
      (l.step op).changes = t.changes.toList ∧
      match (l.step op).reply with
      | .ok r => Q r t
      | .error _ => E t := by
  have hend := h _ hl
  rcases hexec : exec op.perform { link := l } with ⟨r, t⟩
  rw [hexec] at hend
  rw [step_of_exec op hexec]
  cases r <;> exact ⟨t, rfl, rfl, rfl, hend⟩

theorem Triple.map {f : α → β} (hx : Triple P x Q E) (hf : ∀ a t, Q a t → S (f a) t) :
    Triple P (f <$> x) S E := by
  rw [map_eq_pure_bind]
  exact hx.bind fun a => triple_pure (hf a)

theorem triple_ite {p : Prop} [Decidable p] {y : Task α} (hx : p → Triple P x Q E)
    (hy : ¬p → Triple P y Q E) : Triple P (if p then x else y) Q E := by
  split
  · exact hx ‹_›
  · exact hy ‹_›

/-- What is done about each member of a list has a part of the list less to do. -/
theorem triple_forM {f : α → Task Unit} {I : List α → Turn → Prop}
    (hf : ∀ a as, Triple (I (a :: as)) (f a) (fun _ => I as) E) (as : List α) :
    Triple (I as) (as.forM f) (fun _ => I []) E := by
  induction as with
  | nil => exact triple_pure fun t ht => ht
  | cons a as ih => exact (hf a as).bind fun _ => ih

/-! ## The turn -/

theorem triple_link : Triple P link (fun l t => P t ∧ t.link = l) E := fun _ ht => ⟨ht, rfl⟩

theorem triple_client : Triple P client (fun c t => P t ∧ t.link.client = c) E :=
  fun _ ht => ⟨ht, rfl⟩

/-- What is read of the link makes no difference. -/
theorem triple_read : Triple P link (fun _ => P) E := fun _ => id

theorem triple_update {f : Link → Link} (h : ∀ t, P t → R { t with link := f t.link }) :
    Triple P (update f) (fun _ => R) E := h

theorem triple_note {y : Traffic} (h : ∀ t, P t → R { t with traffic := t.traffic.push y }) :
    Triple P (note y) (fun _ => R) E := h

/-- The client reacts, and is refused or not. -/
theorem triple_ask {U : α × List Client.Action → Turn → Prop} {y : Client.Reaction α}
    (h : ∀ t, P t → match y.run t.link.client with
      | ⟨.ok a, acts, c⟩ => U (a, acts) { t with link := { t.link with client := c } }
      | ⟨.error _, _, c⟩ => E { t with link := { t.link with client := c } }) :
    Triple P (ask y) U E := by
  intro t ht
  have h := h t ht
  rw [exec_ask]
  revert h
  rcases y.run t.link.client with ⟨e | a, acts, c⟩
  · exact id
  · exact id

/-! ## Computations that never fail -/

theorem Leads.triple {y : StateM Turn α} (h : Leads P y R) :
    Triple P (liftM y : Task α) (fun _ => R) E := h

theorem leads_pure {a : α} (h : ∀ t, P t → R t) : Leads P (pure a) R := h

theorem leads_get_bind {f : Turn → StateM Turn α} (h : ∀ t, Leads P (f t) R) :
    Leads P (get >>= f) R := fun t ht => h t t ht

theorem leads_modify_bind {g : Turn → Turn} {f : PUnit → StateM Turn α}
    (hg : ∀ t, P t → P' (g t)) (h : ∀ u, Leads P' (f u) R) : Leads P (modify g >>= f) R :=
  fun t ht => h _ (g t) (hg t ht)

theorem Leads.bind {y : StateM Turn α} {f : α → StateM Turn β} (h : Leads P y P')
    (hf : ∀ a, Leads P' (f a) R) : Leads P (y >>= f) R :=
  fun t ht => hf _ _ (h t ht)

theorem leads_ite {p : Prop} [Decidable p] {y z : StateM Turn α} (hy : p → Leads P y R)
    (hz : ¬p → Leads P z R) : Leads P (if p then y else z) R := by
  split
  · exact hy ‹_›
  · exact hz ‹_›

/-- What is done about the result of a task. -/
theorem Triple.leads {f : Except Error α → StateM Turn β} (hx : Triple P x Q E)
    (hok : ∀ a, Leads (Q a) (f (.ok a)) R) (herror : ∀ e, Leads E (f (.error e)) R) :
    Leads P (x.run >>= f) R := by
  intro t ht
  have h := hx t ht
  rw [StateT.run_bind]
  rcases hrun : exec x t with ⟨e | a, t'⟩ <;> rw [hrun] at h <;>
    rw [show StateT.run x.run t = _ from hrun]
  · exact herror e t' h
  · exact hok a t' h

/-! ## Their results

A computation that never fails, taken as a task, has a triple that speaks of its result. -/

section Lift

variable {F : Turn → Prop}

theorem exec_lift (y : StateM Turn α) (t : Turn) :
    exec (liftM y) t = (.ok (y.run t).1, (y.run t).2) := rfl

theorem triple_lift_get_bind {f : Turn → StateM Turn α}
    (h : ∀ t, Triple (fun t' => P t' ∧ t' = t) (liftM (f t)) Q E) :
    Triple P (liftM (get >>= f) : Task α) Q E :=
  fun t ht => h t t ⟨ht, rfl⟩

theorem Triple.lift_bind {y : StateM Turn α} {f : α → StateM Turn β}
    (hy : Triple P (liftM y) Q E) (hf : ∀ a, Triple (Q a) (liftM (f a)) S E) :
    Triple P (liftM (y >>= f) : Task β) S E :=
  fun t ht => hf _ _ (hy t ht)

theorem triple_lift_ite {p : Prop} [Decidable p] {y z : StateM Turn α}
    (hy : p → Triple P (liftM y) Q E) (hz : ¬p → Triple P (liftM z) Q E) :
    Triple P (liftM (if p then y else z) : Task α) Q E := by
  split
  · exact hy ‹_›
  · exact hz ‹_›

/-- What is done about the result of a task. -/
theorem Triple.attempt {f : Except Error α → StateM Turn β} (hx : Triple P x Q F)
    (hok : ∀ a, Triple (Q a) (liftM (f (.ok a))) S E)
    (herror : ∀ e, Triple F (liftM (f (.error e))) S E) :
    Triple P (liftM (x.run >>= f) : Task β) S E := by
  intro t ht
  have h := hx t ht
  rw [exec_lift, StateT.run_bind]
  rcases hrun : exec x t with ⟨e | a, t'⟩ <;> rw [hrun] at h <;>
    rw [show StateT.run x.run t = _ from hrun]
  · exact herror e t' h
  · exact hok a t' h

end Lift

end Task

end Link

end Mqtt
