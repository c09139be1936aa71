import Mqtt.Link.Operation
import Mqtt.Proofs.Client.Blindness
import Mqtt.Proofs.Link.Triple

/-!
# Links are blind to places

Links are alike if their clients differ in the places of their ledgers and nothing else is
different. Every task does the same with links that are alike, since what it does with the client
are reactions, which are blind to places. So nothing tells such links apart: an operation yields the
same reply, the same traffic and the same changes (`Alike.step`), and so do any number of them
(`Alike.outcomes`).
-/

namespace Mqtt

namespace Link

/-- The link with another ledger. -/
def withLedger (l : Link) (k : Ledger) : Link :=
  { l with client := { l.client with session := { l.client.session with ledger := k } } }

/-- The links are the same but for the places in the ledgers of their clients. -/
def Alike (l m : Link) : Prop := ∃ k, l.client.session.ledger.Same k ∧ m = l.withLedger k

/-- The turns are the same but for those places. -/
def Turn.Alike (t u : Turn) : Prop := ∃ m, t.link.Alike m ∧ u = { t with link := m }

variable {l m : Link} {t u : Turn}

theorem Alike.client (h : l.Alike m) : l.client.Alike m.client := by
  obtain ⟨k, hk, rfl⟩ := h
  exact ⟨k, hk, rfl⟩

theorem Alike.withClient (h : l.Alike m) {c d : Client} (hcd : c.Alike d) :
    Alike { l with client := c } { m with client := d } := by
  obtain ⟨_, -, rfl⟩ := h
  obtain ⟨k, hk, rfl⟩ := hcd
  exact ⟨k, hk, rfl⟩

/-- What leaves the client alone keeps links alike. -/
theorem Alike.around (h : l.Alike m) {f : Link → Link}
    (hf : ∀ l c, f { l with client := c } = { f l with client := c }) : (f l).Alike (f m) := by
  have hclient (l : Link) : (f l).client = l.client := by
    have := congrArg Link.client (hf l l.client)
    exact this
  obtain ⟨k, hk, rfl⟩ := h
  refine ⟨k, (hclient l).symm ▸ hk, ?_⟩
  rw [withLedger, withLedger, hf, hclient l]

theorem Turn.Alike.link (h : t.Alike u) : t.link.Alike u.link := by
  obtain ⟨m, hm, rfl⟩ := h
  exact hm

theorem Turn.Alike.withLink (h : t.Alike u) (hlm : l.Alike m) :
    Turn.Alike { t with link := l } { u with link := m } := by
  obtain ⟨_, -, rfl⟩ := h
  exact ⟨m, hlm, rfl⟩

variable {α β : Type}

/-- The computations do the same, the one with the one turn and the other with the other. -/
def Agree (x y : StateM Turn α) : Prop :=
  ∀ t u, t.Alike u → (x.run t).1 = (y.run u).1 ∧ (x.run t).2.Alike (y.run u).2

/-- The computation does the same with turns that are alike. -/
def Blind (x : StateM Turn α) : Prop := Agree x x

/-! ## Computations -/

theorem Agree.bind {x y : StateM Turn α} {f g : α → StateM Turn β} (h : Agree x y)
    (hfg : ∀ a, Agree (f a) (g a)) : Agree (x >>= f) (y >>= g) := by
  have hnext (a b : α) (hab : a = b) : Agree (f a) (g b) := hab ▸ hfg a
  intro t u htu
  obtain ⟨hresult, hafter⟩ := h t u htu
  exact hnext _ _ hresult _ _ hafter

theorem blind_pure (a : α) : Blind (pure a) := fun _ _ htu => ⟨rfl, htu⟩

theorem agree_ite {p : Prop} [Decidable p] {x y x' y' : StateM Turn α} (hx : Agree x x')
    (hy : Agree y y') : Agree (if p then x else y) (if p then x' else y') := by
  split
  · exact hx
  · exact hy

/-- What is read off the turn, apart from the ledger, is the same. -/
theorem agree_get {f g : Turn → StateM Turn α}
    (h : ∀ t k, t.link.client.session.ledger.Same k →
      Agree (f t) (g { t with link := t.link.withLedger k })) :
    Agree (get >>= f) (get >>= g) := by
  rintro t _ ⟨_, ⟨k, hk, rfl⟩, rfl⟩
  exact h t k hk t _ ⟨_, ⟨k, hk, rfl⟩, rfl⟩

/-! ## Tasks -/

namespace Task

/-- The tasks do the same, the one with the one turn and the other with the other. -/
abbrev Agree (x y : Task α) : Prop := Link.Agree x.run y.run

/-- The task does the same with turns that are alike. -/
abbrev Blind (x : Task α) : Prop := Agree x x

theorem blind_pure (a : α) : Blind (pure a) := fun _ _ htu => ⟨rfl, htu⟩

theorem blind_throw (e : Error) : Blind (throw e : Task α) := fun _ _ htu => ⟨rfl, htu⟩

/-- A computation that does not look at the link. -/
theorem blind_lift (x : Except Error α) : Blind (liftM x : Task α) := fun _ _ htu => ⟨rfl, htu⟩

theorem Agree.bind {x y : Task α} {f g : α → Task β} (h : Agree x y)
    (hfg : ∀ a, Agree (f a) (g a)) : Agree (x >>= f) (y >>= g) := by
  rw [Agree, ExceptT.run_bind, ExceptT.run_bind]
  refine Link.Agree.bind h fun r => ?_
  cases r with
  | ok a => exact hfg a
  | error e => exact Link.blind_pure _

theorem Agree.map {x y : Task α} (h : Agree x y) (f : α → β) : Agree (f <$> x) (f <$> y) := by
  rw [map_eq_pure_bind, map_eq_pure_bind]
  exact h.bind fun a => blind_pure (f a)

theorem Blind.tryCatch {x : Task α} {f : Error → Task α} (h : Blind x) (hf : ∀ e, Blind (f e)) :
    Blind (tryCatch x f) := by
  intro t u htu
  obtain ⟨hresult, hafter⟩ := h t u htu
  rcases ht : x.run.run t with ⟨r, t'⟩
  rcases hu : x.run.run u with ⟨r', u'⟩
  rw [ht, hu] at hresult hafter
  obtain rfl : r = r' := hresult
  cases r with
  | ok a =>
    rw [Except.run_tryCatch_ok f ht, Except.run_tryCatch_ok f hu]
    exact ⟨rfl, hafter⟩
  | error e =>
    rw [Except.run_tryCatch_error f ht, Except.run_tryCatch_error f hu]
    exact hf e t' u' hafter

theorem blind_forM {f : β → Task Unit} (hf : ∀ a, Blind (f a)) (as : List β) :
    Blind (as.forM f) := by
  induction as with
  | nil => exact blind_pure ()
  | cons a as ih => exact (hf a).bind fun _ => ih

/-- A computation that never fails. -/
theorem blind_liftM {x : StateM Turn α} (h : Link.Blind x) : Blind (liftM x : Task α) :=
  fun t u htu => ⟨congrArg Except.ok (h t u htu).1, (h t u htu).2⟩

/-! ### The link -/

/-- What is read off the link, apart from the ledger, is the same. -/
theorem blind_link {f : Link → Task α}
    (h : ∀ l k, l.client.session.ledger.Same k → Agree (f l) (f (l.withLedger k))) :
    Blind (link >>= f) := by
  rintro t _ ⟨_, ⟨k, hk, rfl⟩, rfl⟩
  exact h t.link k hk t _ ⟨_, ⟨k, hk, rfl⟩, rfl⟩

theorem blind_client {f : Client → Task α}
    (h : ∀ c k, c.session.ledger.Same k →
      Agree (f c) (f { c with session := { c.session with ledger := k } })) :
    Blind (client >>= f) := by
  rintro t _ ⟨_, ⟨k, hk, rfl⟩, rfl⟩
  exact h t.link.client k hk t _ ⟨_, ⟨k, hk, rfl⟩, rfl⟩

theorem blind_update {f : Link → Link}
    (hf : ∀ l c, f { l with client := c } = { f l with client := c }) : Blind (update f) :=
  fun _ _ htu => ⟨rfl, htu.withLink (htu.link.around hf)⟩

theorem blind_note (x : Traffic) : Blind (note x) := by
  rintro t _ ⟨m, hm, rfl⟩
  exact ⟨rfl, m, hm, rfl⟩

theorem blind_persist (x : Change) : Blind (persist x) := by
  refine blind_link fun l k _ => agree_ite ?_ (blind_pure ())
  rintro t _ ⟨m, hm, rfl⟩
  exact ⟨rfl, m, hm, rfl⟩

theorem blind_queue (es : List Client.Event) : Blind (queue es) := blind_update fun _ _ => rfl

theorem blind_ask {x : Client.Reaction α} (h : x.Blind) : Blind (ask x) := by
  intro t u htu
  obtain ⟨hresult, hacts, hclient⟩ := (h _ _ htu.link.client).run
  have ht := exec_ask x t
  have hu := exec_ask x u
  unfold exec at ht hu
  rw [ht, hu, hresult, hacts]
  exact ⟨rfl, htu.withLink (htu.link.withClient hclient)⟩

/-! ### Losing the connection -/

theorem blind_lose : Blind lose :=
  (blind_update fun _ _ => rfl).bind fun _ => (blind_note _).bind fun _ =>
    blind_link fun _ _ _ => blind_link fun l _ _ =>
      (blind_ask (Client.Reaction.blind_connectionLost l.now)).bind fun _ => blind_queue _

theorem blind_loseWith (e : Error) : Blind (loseWith e : Task α) :=
  blind_lose.bind fun _ => blind_throw e

/-! ### Actions -/

theorem blind_write (frame : Bytes) : Blind (write frame) := by
  refine blind_link fun l k _ => ?_
  change Blind _
  rcases l.transport.write frame with ⟨e | u, x, transport⟩
  · exact (blind_note _).bind fun _ => (blind_update fun _ _ => rfl).bind fun _ => blind_loseWith e
  · exact (blind_note _).bind fun _ => (blind_update fun _ _ => rfl).bind fun _ =>
      blind_update fun _ _ => rfl

theorem blind_carryOut (a : Client.Action) : Blind (carryOut a) := by
  cases a with
  | send frame => exact blind_write frame
  | emit e => exact blind_queue [e]
  | persist x => exact blind_persist x
  | keepAlive seconds =>
    rintro t _ ⟨_, ⟨k, hk, rfl⟩, rfl⟩
    exact ⟨rfl, _, ⟨k, hk, rfl⟩, rfl⟩
  | close => exact blind_lose

theorem blind_react {x : Client.Reaction α} (h : x.Blind) : Blind (react x) :=
  (blind_ask h).bind fun _ => (blind_forM blind_carryOut _).bind fun _ => blind_pure _

theorem blind_abandon (id : Option UInt16) : Blind (abandon id) := by
  cases id with
  | none => exact blind_pure ()
  | some id =>
    exact (blind_ask (Client.Reaction.blind_abandon id)).bind fun _ => blind_forM blind_persist _

theorem blind_publish {x : Client.Reaction (Option UInt16)} (h : x.Blind) : Blind (publish x) :=
  (blind_ask h).bind fun _ =>
    (Blind.tryCatch (blind_forM blind_carryOut _) fun e =>
      (blind_abandon _).bind fun _ => blind_throw e).bind fun _ => blind_pure _

theorem blind_request (r : Client.Request) : Blind (request r) := by
  cases r with
  | publish p => exact blind_publish (Client.Reaction.blind_publish p)
  | publishWithId id p =>
    exact (blind_publish ((Client.Reaction.blind_publishWithId id p).bind fun _ =>
      Client.Reaction.blind_pure (some id))).bind fun _ => blind_pure none
  | subscribe | subscribeWithId | unsubscribe | unsubscribeWithId | acknowledge =>
    exact blind_react (Client.Reaction.blind_request _)

/-! ### Waiting -/

theorem blind_onDeadline : Blind onDeadline := by
  refine blind_link fun l k _ => ?_
  change Blind _
  cases l.keepAlive with
  | none => exact blind_pure ()
  | some ka =>
    dsimp only
    cases ka.poll l.now with
    | idle => exact blind_pure ()
    | sendPing =>
      exact (blind_react Client.Reaction.blind_ping).bind fun _ => blind_update fun _ _ => rfl
    | timedOut => exact blind_loseWith _

theorem blind_packetUpTo (fuel : Nat) : Blind (packetUpTo fuel) := by
  induction fuel with
  | zero => exact blind_loseWith _
  | succ fuel ih =>
    refine blind_link fun l k _ => ?_
    change Blind _
    cases Stream.next l.client.version l.client.incomingLimit l.received with
    | packet p rest => exact (blind_update fun _ _ => rfl).bind fun _ => blind_pure p
    | refused e rest => exact (blind_update fun _ _ => rfl).bind fun _ => blind_loseWith e
    | incomplete =>
      dsimp only
      rcases l.transport.read (l.keepAlive.bind (·.deadline)) l.now with ⟨wake, transport, now⟩
      refine (blind_update fun _ _ => rfl).bind fun _ => ?_
      dsimp only
      split
      · exact blind_loseWith _
      · exact (blind_update fun _ _ => rfl).bind fun _ => ih
      · exact blind_loseWith _
      · exact blind_onDeadline.bind fun _ => ih

theorem blind_packet : Blind packet := blind_link fun _ _ _ => blind_packetUpTo _

theorem blind_connect (o : ConnectOptions) : Blind (connect o) := by
  have hunanswered : Blind (throw (.connection .closedBeforeConnAck) : Task (Bool × Reason)) :=
    blind_throw _
  refine blind_client fun c k _ => agree_ite ((blind_throw _).bind fun _ => ?_) ?_
  all_goals
    refine (blind_update fun _ _ => rfl).bind fun _ => (blind_note _).bind fun _ => ?_
    refine blind_link fun l _ _ => (blind_lift _).bind fun _ => blind_link fun l _ _ => ?_
    refine (blind_react (Client.Reaction.blind_connect o l.now)).bind fun _ => ?_
    refine blind_packet.bind fun p => ?_
    refine (blind_react (Client.Reaction.blind_receive p)).bind fun _ => ?_
    cases p with
    | connAck a => exact blind_client fun _ _ _ => agree_ite (blind_pure _) (blind_throw _)
    | _ => exact hunanswered

theorem blind_pollUpTo (fuel : Nat) : Blind (pollUpTo fuel) := by
  induction fuel with
  | zero => exact blind_loseWith _
  | succ fuel ih =>
    refine blind_link fun l k _ => ?_
    change Blind _
    have hreceive (p : Packet) : Blind (react (.receive p) >>= fun _ => pollUpTo fuel) :=
      (blind_react (Client.Reaction.blind_receive p)).bind fun _ => ih
    cases l.events with
    | cons e events => exact (blind_update fun _ _ => rfl).bind fun _ => blind_pure e
    | nil =>
      refine blind_client fun c k _ => agree_ite ((blind_throw _).bind fun _ => ?_) ?_
      all_goals
        refine blind_packet.bind fun p => agree_ite ?_ (hreceive p)
        exact (blind_update fun _ _ => rfl).bind fun _ => hreceive p

theorem blind_poll : Blind poll := by
  refine Agree.bind ?_ fun _ => blind_pollUpTo _
  exact blind_link fun _ _ _ => blind_pure _

theorem blind_disconnect : Blind disconnect :=
  blind_link fun l _ _ => blind_react (Client.Reaction.blind_disconnect l.now)

end Task

/-! ## Taking every event -/

theorem blind_pollAllUpTo (fuel : Nat) : Blind (pollAllUpTo fuel) := by
  induction fuel with
  | zero => exact blind_pure _
  | succ fuel ih =>
    refine Agree.bind (x := Task.poll.run) Task.blind_poll fun r => ?_
    cases r with
    | error e => exact blind_pure _
    | ok event => exact agree_get fun t k _ => ih.bind fun _ => blind_pure _

theorem blind_pollAll : Blind pollAll := agree_get fun _ _ _ => blind_pollAllUpTo _

theorem blind_clearEvents {f : Unit → StateM Turn α} (hf : Blind (f ())) :
    Blind ((modify fun t => { t with link.events := [] }) >>= f : StateM Turn α) := by
  refine Agree.bind (x := modify fun t : Turn => { t with link.events := [] }) ?_ fun _ => hf
  rintro t _ ⟨_, ⟨k, hk, rfl⟩, rfl⟩
  exact ⟨rfl, _, ⟨k, hk, rfl⟩, rfl⟩

theorem blind_runUpTo (goOn : List Client.Event → Client.Event → Bool) (fuel : Nat)
    (seen : List Client.Event) : Blind (runUpTo goOn fuel seen) := by
  induction fuel generalizing seen with
  | zero => exact blind_pure _
  | succ fuel ih =>
    refine Agree.bind (x := Task.poll.run) Task.blind_poll fun r => ?_
    split
    · exact blind_pure _
    · exact agree_get fun _ _ _ => blind_clearEvents (blind_pure _)
    · refine agree_get fun t k _ => agree_ite (agree_ite ?_ (blind_pure _)) ?_
      · exact Agree.bind Task.blind_disconnect fun _ => blind_pure _
      · exact agree_ite (blind_pure _) (ih _)

theorem blind_run (goOn : List Client.Event → Client.Event → Bool) : Blind (run goOn) :=
  agree_get fun _ _ _ => blind_runUpTo _ _ _

/-! ## Operations -/

theorem blind_perform (op : Op) : Task.Blind op.perform := by
  cases op with
  | arrive | replaceTransport | advance =>
    exact (Task.blind_update fun _ _ => rfl).bind fun _ => Task.blind_pure _
  | connect o => exact (Task.blind_connect o).bind fun _ => Task.blind_pure _
  | request r => exact (Task.blind_request r).map _
  | restore id data =>
    exact (Task.blind_ask (Client.Reaction.blind_restore id data)).bind fun _ => Task.blind_pure _
  | poll => exact Task.blind_poll.map _
  | pollAll => exact (Task.blind_liftM blind_pollAll).bind fun _ => Task.blind_pure _
  | run => exact (Task.blind_liftM (blind_run _)).bind fun _ => Task.blind_pure _
  | disconnect => exact Task.blind_disconnect.bind fun _ => Task.blind_pure _
  | forceDisconnect => exact Task.blind_lose.bind fun _ => Task.blind_pure _

/-- An operation yields the same with links that are alike, and leaves links that are alike. -/
theorem Alike.step (h : l.Alike m) (op : Op) : (l.step op).reply = (m.step op).reply ∧
    (l.step op).traffic = (m.step op).traffic ∧ (l.step op).changes = (m.step op).changes ∧
      (l.step op).link.Alike (m.step op).link := by
  obtain ⟨hreply, hafter⟩ := blind_perform op { link := l } { link := m } ⟨m, h, rfl⟩
  rcases hl : op.perform.run.run { link := l } with ⟨r, t⟩
  rcases hm : op.perform.run.run { link := m } with ⟨r', t'⟩
  rw [hl, hm] at hreply hafter
  obtain ⟨m', hm', rfl⟩ := hafter
  rw [Link.step, hl, Link.step, hm]
  exact ⟨hreply, rfl, rfl, hm'⟩

/-- What operations yield that can be seen from outside: the replies, what reached the transport and
what was passed on to the sink. -/
def outcomes (l : Link) : List Op → List (Except Error Reply × List Traffic × List Change)
  | [] => []
  | op :: ops =>
    let o := l.step op
    (o.reply, o.traffic, o.changes) :: o.link.outcomes ops

/-- Nothing that can be seen from outside tells links apart that are alike. -/
theorem Alike.outcomes (h : l.Alike m) (ops : List Op) : l.outcomes ops = m.outcomes ops := by
  induction ops generalizing l m with
  | nil => rfl
  | cons op ops ih =>
    obtain ⟨hreply, htraffic, hchanges, hafter⟩ := h.step op
    rw [Link.outcomes, Link.outcomes, hreply, htraffic, hchanges, ih hafter]

end Link

end Mqtt
