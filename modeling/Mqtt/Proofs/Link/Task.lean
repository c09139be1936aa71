import Mqtt.Proofs.Client.Takes
import Mqtt.Proofs.Link.Triple

/-!
# Tasks that keep the records in step

In the middle of a task a link owes the sink the changes of the actions that are still to be carried
out (`Turn.Owes`); when it owes nothing, the records are those of the exchanges in flight
(`Turn.InStep`). A frame that cannot be written ends the actions, so all that is owed then is lost.
A task keeps step (`Task.Keeps`) if that happens at no frames but those in `F`.

`keeps_react` is for the reactions of the client, each of which makes the changes of its actions;
`keeps_publish` for a message, which is abandoned if its frame is not written.
-/

namespace Mqtt

/-- A frame that is refused leaves the transport as it is. -/
theorem Transport.unchanged_of_write {t t' : Transport} {frame : Bytes} {e : Error} {x : Traffic}
    (h : t.write frame = (.error e, x, t')) : x = .refusedWrite frame ∧ t' = t := by
  unfold write at h
  split at h <;> cases h
  exact ⟨rfl, rfl⟩

/-- The requests to publish a message. -/
def Client.Request.IsPublish : Client.Request → Prop
  | .publish _ | .publishWithId .. => True
  | _ => False

namespace Link

open Client (Any Lasting Prompt Publishes Steps)

/-- The sink was `s` at first. Once it has got the changes `cs` as well, its records are those of
the exchanges in flight. -/
structure Turn.Owes (s : Sink) (cs : List Change) (P : Client → Prop) (t : Turn) : Prop where
  persists : t.link.persists
  wf : t.link.client.WF
  client : P t.link.client
  records : s.applyAll (t.changes.toList ++ cs) = .ofLedger t.link.client.session.ledger

/-- The records are those of the exchanges in flight. -/
abbrev Turn.InStep (s : Sink) (P : Client → Prop) : Turn → Prop := Turn.Owes s [] P

/-- The records are those of the exchanges in flight, unless a frame in `F` was not written. -/
def Turn.Halted (s : Sink) (F : Bytes → Prop) (t : Turn) : Prop :=
  t.InStep s Any ∨ ∃ frame, F frame ∧ .refusedWrite frame ∈ t.traffic.toList

/-- A task that keeps the records in step, from a client as in `P` to one as in `Q`. -/
def Task.Keeps {α : Type} (s : Sink) (F : Bytes → Prop) (P Q : Client → Prop) (x : Task α) : Prop :=
  Task.Triple (Turn.InStep s P) x (fun _ => Turn.InStep s Q) (Turn.Halted s F)

section Owes

variable {s : Sink} {cs : List Change} {P Q : Client → Prop} {F : Bytes → Prop} {t t' : Turn}

theorem Turn.Owes.congr (h : t.Owes s cs P) (hc : t'.link.client = t.link.client)
    (hp : t'.link.persists = t.link.persists) (hs : t'.changes = t.changes) : t'.Owes s cs P := by
  refine ⟨?_, ?_, ?_, ?_⟩
  · rw [hp]; exact h.persists
  · rw [hc]; exact h.wf
  · rw [hc]; exact h.client
  · rw [hc, hs]; exact h.records

theorem Turn.Owes.imp (h : t.Owes s cs P) (hPQ : P t.link.client → Q t.link.client) :
    t.Owes s cs Q :=
  ⟨h.persists, h.wf, hPQ h.client, h.records⟩

theorem Turn.Owes.halted (h : t.InStep s P) : t.Halted s F := .inl (h.imp fun _ => trivial)

theorem Turn.Halted.imp {G : Bytes → Prop} (h : t.Halted s F) (hFG : ∀ frame, F frame → G frame) :
    t.Halted s G :=
  Or.imp_right (fun ⟨frame, hf, hmem⟩ => ⟨frame, hFG frame hf, hmem⟩) h

theorem Turn.Halted.congr (h : t.Halted s F) (hc : t'.link.client = t.link.client)
    (hp : t'.link.persists = t.link.persists) (hs : t'.changes = t.changes)
    (ht : t'.traffic = t.traffic) : t'.Halted s F := by
  rcases h with h | h
  · exact .inl (h.congr hc hp hs)
  · rw [← ht] at h
    exact .inr h

end Owes

namespace Task

variable {α β : Type} {s : Sink} {cs : List Change} {P Q R : Client → Prop} {F : Bytes → Prop}
  {E : Turn → Prop} {x : Task α}

/-! ## Rules -/

theorem Keeps.bind {f : α → Task β} (hx : Keeps s F P Q x) (hf : ∀ a, Keeps s F Q R (f a)) :
    Keeps s F P R (x >>= f) :=
  Triple.bind hx hf

theorem Keeps.imp (hx : Keeps s F P Q x) {P' Q' : Client → Prop} (hP : ∀ c, P' c → P c)
    (hQ : ∀ c, Q c → Q' c) : Keeps s F P' Q' x :=
  Triple.imp hx (fun _ ht => ht.imp (hP _)) (fun _ _ ht => ht.imp (hQ _)) fun _ => id

theorem keeps_pure (a : α) : Keeps s F P P (pure a) := triple_pure fun _ => id

theorem keeps_throw (e : Error) : Keeps s F P Q (throw e : Task α) :=
  triple_throw fun _ ht => ht.halted

/-- A change of the link outside the client. -/
theorem triple_around {f : Link → Link} (hc : ∀ l, (f l).client = l.client)
    (hp : ∀ l, (f l).persists = l.persists) :
    Triple (Turn.Owes s cs P) (update f) (fun _ => Turn.Owes s cs P) E :=
  triple_update fun t ht => ht.congr (hc t.link) (hp t.link) rfl

theorem keeps_read : Keeps s F P P link := triple_read

theorem keeps_client : Keeps s F P P client := fun _ => id

/-- What the client is like may decide what is done. -/
theorem keeps_client_bind {f : Client → Task α}
    (h : ∀ c, Keeps s F (fun c' => P c' ∧ c' = c) Q (f c)) : Keeps s F P Q (client >>= f) := by
  refine Triple.bind triple_client fun c => ?_
  exact Triple.imp (h c) (fun t ht => ht.1.imp fun hP => ⟨hP, ht.2⟩) (fun _ _ => id) fun _ => id

theorem keeps_around {f : Link → Link} (hc : ∀ l, (f l).client = l.client)
    (hp : ∀ l, (f l).persists = l.persists) : Keeps s F P P (update f) :=
  triple_around hc hp

/-- What ends with an error under a condition. -/
theorem keeps_unless {p : Prop} [Decidable p] {e : Error} {f : Unit → Task α}
    (h : ¬p → Keeps s F P Q (f ())) :
    Keeps s F P Q (if p then (throw e : Task Unit) >>= f else f ()) :=
  triple_ite (fun _ => Triple.bind (Q := fun _ _ => False) (triple_throw fun _ ht => ht.halted)
    fun _ _ => False.elim) h

/-- What is done under a condition, before something else. -/
theorem keeps_when {p : Prop} [Decidable p] {x : Task Unit} {f : Unit → Task α}
    (hx : Keeps s F P P x) (hf : ∀ u, Keeps s F P Q (f u)) :
    Keeps s F P Q (if p then x >>= f else f ()) :=
  triple_ite (fun _ => hx.bind hf) fun _ => hf ()

theorem triple_queue (es : List Client.Event) :
    Triple (Turn.Owes s cs P) (queue es) (fun _ => Turn.Owes s cs P) E :=
  triple_around (fun _ => rfl) fun _ => rfl

/-! ## The end of a connection -/

/-- The client is told that the connection is lost. -/
theorem triple_connectionLost (hP : Lasting P) (now : Nat) {T : List Traffic → Prop} :
    Triple (fun t => t.Owes s cs P ∧ T t.traffic.toList) (ask (.connectionLost now))
      (fun _ t => t.Owes s cs P ∧ T t.traffic.toList) E := by
  refine triple_ask fun t ⟨ht, htraffic⟩ => ?_
  obtain ⟨acts, c', hrun, h⟩ := Client.Reaction.runs_connectionLost (c := t.link.client) now
  rw [hrun.run_ok]
  refine ⟨⟨ht.persists, ?_, hP h ht.client, ?_⟩, htraffic⟩
  · exact Client.Steps.wf ht.wf (.connectionLost h)
  · rw [ht.records, h.ledger]

theorem triple_lose_noting (hP : Lasting P) {T : List Traffic → Prop}
    (hT : ∀ traffic, T traffic → T (traffic ++ [.close])) :
    Triple (fun t => t.Owes s cs P ∧ T t.traffic.toList) lose
      (fun _ t => t.Owes s cs P ∧ T t.traffic.toList) E := by
  unfold lose
  refine Triple.bind (Q := fun _ t => t.Owes s cs P ∧ T t.traffic.toList)
    (triple_update fun t ht => ⟨ht.1.congr rfl rfl rfl, ht.2⟩) fun _ => ?_
  refine Triple.bind (Q := fun _ t => t.Owes s cs P ∧ T t.traffic.toList)
    (triple_note fun t ht => ⟨ht.1.congr rfl rfl rfl, ?_⟩) fun _ => ?_
  · rw [Array.toList_push]
    exact hT _ ht.2
  refine Triple.bind triple_read fun l => Triple.bind triple_read fun l => ?_
  refine Triple.bind (triple_connectionLost hP l.now) fun r => ?_
  exact triple_update fun t ht => ⟨ht.1.congr rfl rfl rfl, ht.2⟩

theorem triple_lose (hP : Lasting P) :
    Triple (Turn.Owes s cs P) lose (fun _ => Turn.Owes s cs P) E :=
  (triple_lose_noting (T := fun _ => True) hP fun _ => id).imp (fun _ ht => ⟨ht, trivial⟩)
    (fun _ _ => And.left) fun _ => id

theorem keeps_loseWith (hP : Lasting P) (e : Error) : Keeps s F P Q (loseWith e : Task α) :=
  Triple.bind (triple_lose hP) fun _ => keeps_throw e

/-! ## Actions -/

theorem triple_write (hP : Lasting P) (frame : Bytes) :
    Triple (Turn.Owes s cs P) (write frame) (fun _ => Turn.Owes s cs P)
      (fun t => t.Owes s cs P ∧ .refusedWrite frame ∈ t.traffic.toList) := by
  unfold write
  refine Triple.bind triple_read fun l => ?_
  rcases hw : l.transport.write frame with ⟨e | u, x, transport⟩
  · obtain ⟨rfl, -⟩ := Transport.unchanged_of_write hw
    refine Triple.bind (Q := fun _ t => t.Owes s cs P ∧ .refusedWrite frame ∈ t.traffic.toList)
      (triple_note fun t ht => ⟨ht.congr rfl rfl rfl, by simp⟩) fun _ => ?_
    refine Triple.bind (Q := fun _ t => t.Owes s cs P ∧ .refusedWrite frame ∈ t.traffic.toList)
      (triple_update fun t ht => ⟨ht.1.congr rfl rfl rfl, ht.2⟩) fun _ => ?_
    refine Triple.bind (triple_lose_noting hP fun traffic => List.mem_append_left _) fun _ => ?_
    exact triple_throw fun _ => id
  · refine Triple.bind (triple_note fun t ht => ht.congr rfl rfl rfl) fun _ => ?_
    refine Triple.bind (triple_around (fun _ => rfl) fun _ => rfl) fun _ => ?_
    exact triple_around (fun _ => rfl) fun _ => rfl

/-- A change that is passed on is no longer owed. -/
theorem triple_persist (x : Change) :
    Triple (Turn.Owes s (x :: cs) P) (persist x) (fun _ => Turn.Owes s cs P) E := by
  refine Triple.bind triple_link fun l => ?_
  rintro t ⟨ht, rfl⟩
  rw [if_pos ht.persists]
  refine ⟨ht.persists, ht.wf, ht.client, ?_⟩
  have h := ht.records
  rw [List.append_cons] at h
  change s.applyAll ((t.changes.push x).toList ++ cs) = _
  rwa [Array.toList_push]

/-- Actions are carried out up to a frame that is not written. -/
theorem triple_carryOutAll (hP : Lasting P) {acts : List Client.Action} (hacts : Prompt F acts) :
    Triple (Turn.Owes s (Client.changesOf acts) P) (carryOutAll acts) (fun _ => Turn.InStep s P)
      (Turn.Halted s F) := by
  induction acts with
  | nil => exact triple_pure fun _ => id
  | cons a acts ih =>
    cases a with
    | send frame =>
      refine Triple.bind (Q := fun _ => Turn.Owes s (Client.changesOf acts) P)
        (Triple.imp (triple_write hP frame) (fun _ => id) (fun _ _ => id) fun t ht => ?_)
        fun _ => ih hacts.2
      rcases hacts.1 with hnone | hframe
      · have howes : t.Owes s (Client.changesOf acts) P := ht.1
        rw [hnone] at howes
        exact howes.halted
      · exact .inr ⟨frame, hframe, ht.2⟩
    | emit v => exact Triple.bind (triple_queue [v]) fun _ => ih hacts
    | persist x => exact Triple.bind (triple_persist x) fun _ => ih hacts
    | keepAlive seconds =>
      refine Triple.bind (Q := fun _ => Turn.Owes s (Client.changesOf acts) P) ?_ fun _ => ih hacts
      rw [carryOut]
      exact triple_around (fun _ => rfl) fun _ => rfl
    | close => exact Triple.bind (triple_lose hP) fun _ => ih hacts

/-! ## Reactions -/

theorem triple_reaction {y : Client.Reaction α} (hy : y.Takes F P Q) :
    Triple (Turn.InStep s P) (ask y)
      (fun r t => Prompt F r.2 ∧ t.Owes s (Client.changesOf r.2) Q) (Turn.Halted s F) := by
  refine triple_ask fun t ht => ?_
  rcases hy _ ht.wf ht.client with hrefuse | ⟨a, acts, c', hrun, hwf, hQ, hprompt, hrecords⟩
  · obtain ⟨e, hrun⟩ := hrefuse.run
    rw [hrun]
    exact ht.halted
  · rw [hrun.run_ok]
    refine ⟨hprompt, ht.persists, hwf, hQ, ?_⟩
    have h := ht.records
    rw [List.append_nil] at h
    rw [Sink.applyAll_append, h, hrecords]

theorem keeps_react {y : Client.Reaction α} (hy : y.Takes F P Q) (hQ : Lasting Q) :
    Keeps s F P Q (react y) := by
  refine Triple.bind (triple_reaction hy) fun r => ?_
  intro t ht
  exact (triple_carryOutAll hQ ht.1).bind (fun _ => keeps_pure r.1) t ht.2

/-! ## Requests -/

/-- A message is forgotten, and its record with it. -/
theorem keeps_abandon (id : Option UInt16) : Keeps s F Any Any (abandon id) := by
  cases id with
  | none => exact keeps_pure ()
  | some n =>
    refine Triple.bind (triple_reaction (Client.takes_abandon n)) fun r => ?_
    refine Triple.imp ?_ (fun _ => And.right) (fun _ _ => id) fun _ => id
    exact triple_forM (I := fun cs => Turn.Owes s cs Any) (fun x _ => triple_persist x) _

/-- A message that cannot be written is abandoned, with its record. -/
theorem keeps_publish {y : Client.Reaction (Option UInt16)}
    (hy : y.Takes (fun _ => False) Any Any) :
    Keeps s (fun _ => False) Any Any (publish y) := by
  refine Triple.bind (triple_reaction hy) fun r => ?_
  rintro t ⟨hprompt, ht⟩
  refine Triple.bind (Triple.catching (triple_carryOutAll Client.lasting_any hprompt) fun e => ?_)
    (fun _ => keeps_pure r.1) t ht
  refine Triple.imp (P := Turn.InStep s Any) ?_ (fun t ht => ?_) (fun _ _ => id) fun _ => id
  · exact (keeps_abandon r.1).bind fun _ => keeps_throw e
  · exact ht.resolve_right fun ⟨_, hf, _⟩ => hf

/-- Either way of publishing has the client publish a message. -/
theorem request_publish {r : Client.Request} (hr : r.IsPublish) :
    ∃ (y : Client.Reaction (Option UInt16)) (f : Option UInt16 → Option UInt16),
      request r = f <$> publish y ∧ ∀ c : Client, c.WF → y.Settles c fun a acts c' =>
        (∃ i, Steps c (.request r) i acts c') ∧ ∃ p, Publishes c p a acts c' := by
  cases r with
  | publish p =>
    refine ⟨_, id, (id_map _).symm, fun c hc => ?_⟩
    exact (Client.Reaction.settles_publish hc.session p).imp fun a _ _ h =>
      ⟨⟨a, .publish h.1 h.2⟩, p, h.2⟩
  | publishWithId id p =>
    refine ⟨_, fun _ => none, (map_eq_pure_bind _ _).symm, fun c hc => ?_⟩
    refine (Client.Reaction.settles_publishWithId hc.session id p).bind_pure fun _ _ _ hs =>
      ⟨⟨none, hs⟩, ?_⟩
    cases hs with
    | publishWithId hconn hq hid h => exact ⟨_, h.id_eq hq rfl ▸ h⟩
  | subscribe | subscribeWithId | unsubscribe | unsubscribeWithId | acknowledge => exact hr.elim

/-- Any other request is a reaction. -/
theorem request_react {r : Client.Request} (hr : ¬r.IsPublish) : request r = react r.react := by
  cases r with
  | publish | publishWithId => exact absurd trivial hr
  | subscribe | subscribeWithId | unsubscribe | unsubscribeWithId | acknowledge => rfl

theorem keeps_request (r : Client.Request) :
    Keeps s (fun _ => False) Any Any (request r) := by
  by_cases hr : r.IsPublish
  · obtain ⟨y, f, hrequest, hy⟩ := request_publish hr
    rw [hrequest]
    refine Triple.map (keeps_publish (Client.takes_request (r := r) fun c hc => ?_)) fun _ _ => id
    exact (hy c hc).imp fun _ _ _ => And.left
  · rw [request_react hr]
    refine keeps_react (Client.takes_request (r := r) fun c hc => ?_) Client.lasting_any
    exact (Client.Reaction.settles_request hc.session r).imp fun a _ _ hs => ⟨a, hs⟩

end Task

end Link

end Mqtt
