import Mathlib
import Mqtt.Proofs.Link.Account
import Mqtt.Proofs.Wire.Layout

/-!
# Where the transport is closed

A transport is opened for a connection and has to be closed when that is gone. In the middle of its
work a link sees to that (`Turn.Minds`): there is a connection or one is asked for, or the transport
is closed, or an action that is still to be carried out closes it. Every task keeps to it, and
`connect` does once CONNECT is written down; so the transport of a client that is not connected is
closed after every operation (`closed_while_disconnected`).

A CONNECT that cannot be written down is found out too late, when the transport is open already
(`step_connect_unsayable`), and nothing closes it. This apart, a call of `connect` that fails closes
what it has opened: `failed_connect_closes`.
-/

namespace Mqtt

/-- Whether a transport is open after what has reached it, if `isOpen` says so of it before. -/
def Traffic.leavesOpen (isOpen : Bool) : List Traffic → Bool
  | [] => isOpen
  | .connect :: traffic => leavesOpen true traffic
  | .close :: traffic => leavesOpen false traffic
  | .write _ :: traffic | .refusedWrite _ :: traffic => leavesOpen isOpen traffic

theorem Traffic.leavesOpen_append (isOpen : Bool) (traffic traffic' : List Traffic) :
    leavesOpen isOpen (traffic ++ traffic') = leavesOpen (leavesOpen isOpen traffic) traffic' := by
  induction traffic generalizing isOpen with
  | nil => rfl
  | cons x traffic ih => cases x <;> exact ih _

/-- What was open and is not any more was closed. -/
theorem Traffic.close_mem {traffic : List Traffic} (h : leavesOpen true traffic = false) :
    .close ∈ traffic := by
  induction traffic with
  | nil => cases h
  | cons x traffic ih =>
    cases x with
    | close => exact List.mem_cons_self
    | connect | write | refusedWrite => exact List.mem_cons_of_mem _ (ih h)

/-- A write neither opens a transport nor closes it. -/
theorem Transport.leavesOpen_write {t t' : Transport} {frame : Bytes} {r : Except Error Unit}
    {x : Traffic} (h : t.write frame = (r, x, t')) (isOpen : Bool) :
    Traffic.leavesOpen isOpen [x] = isOpen := by
  unfold write at h
  split at h <;> cases h <;> rfl

namespace Link

open Link.Task
open Client (Any Steps)

/-- A link sees to it that its transport is closed. The actions `acts` still close it, or the client
is as in `Q` and the transport is closed if there is no connection and none is asked for. -/
structure Turn.Minds (isOpen : Bool) (acts : List Client.Action) (Q : Client → Prop) (t : Turn) :
    Prop where
  wf : t.link.client.WF
  closed : .close ∈ acts ∨ Q t.link.client ∧ (t.link.client.phase = .disconnected →
    Traffic.leavesOpen isOpen t.traffic.toList = false)

/-- The connection is gone, and the transport is closed. -/
abbrev Turn.Shut (isOpen : Bool) : Turn → Prop := Turn.Minds isOpen [] (·.phase = .disconnected)

section Minds

variable {isOpen : Bool} {acts : List Client.Action} {a : Client.Action} {Q Q' : Client → Prop}
  {t t' : Turn}

theorem Turn.Minds.congr (h : t.Minds isOpen acts Q) (hc : t'.link.client = t.link.client)
    (ht : t'.traffic = t.traffic) : t'.Minds isOpen acts Q := by
  refine ⟨?_, ?_⟩
  · rw [hc]; exact h.wf
  · rw [hc, ht]; exact h.closed

theorem Turn.Minds.imp (h : t.Minds isOpen acts Q) (hQ : ∀ c, Q c → Q' c) :
    t.Minds isOpen acts Q' :=
  ⟨h.wf, h.closed.imp_right (And.imp_left (hQ _))⟩

theorem Turn.Minds.any (h : t.Minds isOpen acts Q) : t.Minds isOpen acts Any :=
  h.imp fun _ _ => trivial

theorem Turn.Minds.client (h : t.Minds isOpen [] Q) : Q t.link.client :=
  (h.closed.resolve_left (List.not_mem_nil)).1

theorem Turn.Minds.shut (h : t.Minds isOpen [] Q) (hp : t.link.client.phase = .disconnected) :
    Traffic.leavesOpen isOpen t.traffic.toList = false :=
  (h.closed.resolve_left (List.not_mem_nil)).2 hp

/-- What does not close the connection may as well be left out. -/
theorem Turn.Minds.pass (h : t.Minds isOpen (a :: acts) Q) (ha : a ≠ .close) :
    t.Minds isOpen acts Q :=
  ⟨h.wf, h.closed.imp_left fun hmem => (List.mem_cons.1 hmem).resolve_left (Ne.symm ha)⟩

/-- Without an action that closes the connection the others make no difference. -/
theorem Turn.Minds.drop (h : t.Minds isOpen acts Q) (hacts : .close ∉ acts) :
    t.Minds isOpen [] Q :=
  ⟨h.wf, .inr (h.closed.resolve_left hacts)⟩

/-- What a reaction does about the connection. If it ends one, it closes it; the client is as in `Q`
then, or once that is done. -/
structure Follows (Q : Client → Prop) (c : Client) (acts : List Client.Action) (c' : Client) :
    Prop where
  wf : c'.WF
  closes : .close ∈ acts ∨ Q c' ∧ (c'.phase = .disconnected → c.phase = .disconnected)
  closed : .close ∈ acts → ∀ c, c.phase = .disconnected → Q c

theorem Turn.Minds.follow {c : Client} (h : t.Minds isOpen [] Q')
    (hc : Follows Q t.link.client acts c) :
    Turn.Minds isOpen acts Q { t with link := { t.link with client := c } } :=
  ⟨hc.wf, hc.closes.imp_right (And.imp_right fun hp hp' => h.shut (hp hp'))⟩

/-- What neither makes nor ends a connection leaves it as it is. -/
theorem follows_minor {c c' : Client} {op : Client.Op} {i : Option UInt16} (hop : op.Minor)
    (hQ : Q c → Q c') (hc : c.WF) (h : Steps c op i acts c') (hP : Q c) : Follows Q c acts c' where
  wf := h.wf hc
  closes := .inr ⟨hQ hP, fun hp => (h.plain hop).2.symm.trans hp⟩
  closed hmem := absurd hmem (h.plain hop).1.2

end Minds

namespace Task

variable {α : Type} {isOpen : Bool} {acts : List Client.Action} {P Q R : Client → Prop}
  {E : Turn → Prop}

/-! ## Actions -/

theorem minds_update {f : Link → Link} (hc : ∀ l, (f l).client = l.client) :
    Triple (Turn.Minds isOpen acts Q) (update f) (fun _ => Turn.Minds isOpen acts Q) E :=
  triple_update fun t ht => ht.congr (hc t.link) rfl

/-- However things were, the connection is gone and the transport is closed. -/
theorem minds_lose : Triple (fun t => t.link.client.WF) lose (fun _ => Turn.Shut isOpen) E := by
  unfold lose
  refine Triple.bind (Q := fun _ t => t.link.client.WF) (triple_update fun _ => id) fun _ => ?_
  refine Triple.bind (Q := fun _ t => t.link.client.WF ∧
    Traffic.leavesOpen isOpen t.traffic.toList = false) (triple_note fun t ht => ⟨ht, ?_⟩)
    fun _ => ?_
  · rw [Array.toList_push, Traffic.leavesOpen_append]
    rfl
  refine Triple.bind triple_read fun l => Triple.bind triple_read fun l => ?_
  refine Triple.bind (Q := fun _ => Turn.Shut isOpen) (triple_ask fun t ht => ?_) fun r =>
    minds_update fun _ => rfl
  obtain ⟨acts, c', hrun, h⟩ := Client.Reaction.runs_connectionLost (c := t.link.client) l.now
  rw [hrun.run_ok]
  exact ⟨Steps.wf ht.1 (.connectionLost h), .inr ⟨h.phase, fun _ => ht.2⟩⟩

theorem minds_loseWith (e : Error) {S : α → Turn → Prop} :
    Triple (Turn.Minds isOpen acts Q) (loseWith e : Task α) S (Turn.Shut isOpen) :=
  Triple.bind (minds_lose.pre fun _ => Turn.Minds.wf) fun _ => triple_throw fun _ => id

theorem minds_write (frame : Bytes) :
    Triple (Turn.Minds isOpen acts Q) (write frame) (fun _ => Turn.Minds isOpen acts Q)
      (Turn.Shut isOpen) := by
  unfold write
  refine Triple.bind triple_read fun l => ?_
  rcases hw : l.transport.write frame with ⟨r, x, transport⟩
  refine Triple.bind (Q := fun _ => Turn.Minds isOpen acts Q) (triple_note fun t ht =>
    ⟨ht.wf, ?_⟩) fun _ => Triple.bind (minds_update fun _ => rfl) fun _ => ?_
  · rw [Array.toList_push, Traffic.leavesOpen_append, Transport.leavesOpen_write hw]
    exact ht.closed
  cases r with
  | ok u => exact minds_update fun _ => rfl
  | error e => exact minds_loseWith e

theorem minds_persist (x : Change) :
    Triple (Turn.Minds isOpen acts Q) (persist x) (fun _ => Turn.Minds isOpen acts Q) E := by
  refine Triple.bind triple_read fun l => triple_ite (fun _ => ?_) fun _ => triple_pure fun _ => id
  exact fun t ht => ht.congr rfl rfl

/-- Actions are carried out up to a frame that is refused. -/
theorem minds_carryOutAll (hQ : .close ∈ acts → ∀ c, c.phase = .disconnected → Q c) :
    Triple (Turn.Minds isOpen acts Q) (carryOutAll acts) (fun _ => Turn.Minds isOpen [] Q)
      (Turn.Shut isOpen) := by
  induction acts with
  | nil => exact triple_pure fun _ => id
  | cons a acts ih =>
    refine Triple.bind (Q := fun _ => Turn.Minds isOpen acts Q) ?_
      fun _ => ih fun hmem => hQ (List.mem_cons_of_mem a hmem)
    cases a with
    | send frame => exact (minds_write frame).pre fun t ht => ht.pass (by simp)
    | emit v => exact fun t ht => (ht.pass (by simp)).congr rfl rfl
    | persist x => exact (minds_persist x).pre fun t ht => ht.pass (by simp)
    | keepAlive seconds => exact fun t ht => (ht.pass (by simp)).congr rfl rfl
    | close =>
      refine (minds_lose.pre fun _ => Turn.Minds.wf).post fun _ t ht => ⟨ht.wf, .inr ⟨?_, ht.shut⟩⟩
      exact hQ List.mem_cons_self _ ht.client

/-! ## Reactions -/

/-- The client reacts, and what it wants done is carried out. It is as in `R` if the reaction is
refused or the connection is lost. -/
theorem minds_react {y : Client.Reaction α} (hR : ∀ c, c.phase = .disconnected → R c)
    (hy : ∀ c : Client, c.WF → P c → y.Refuses c ∧ R c ∨
      ∃ a acts c', y.Runs c (.ok a) acts c' ∧ Follows Q c acts c') :
    Triple (Turn.Minds isOpen [] P) (react y) (fun _ => Turn.Minds isOpen [] Q)
      (Turn.Minds isOpen [] R) := by
  refine Triple.bind (Q := fun r t => t.Minds isOpen r.2 Q ∧
    (.close ∈ r.2 → ∀ c, c.phase = .disconnected → Q c)) (triple_ask fun t ht => ?_) fun r => ?_
  · rcases hy _ ht.wf ht.client with ⟨hrefuse, hc⟩ | ⟨a, acts, c', hrun, h⟩
    · obtain ⟨e, hrun⟩ := hrefuse.run
      rw [hrun]
      exact ⟨ht.wf, .inr ⟨hc, ht.shut⟩⟩
    · rw [hrun.run_ok]
      exact ⟨ht.follow h, h.closed⟩
  · rintro t ⟨ht, hQ⟩
    exact Triple.bind ((minds_carryOutAll hQ).imp (fun _ => id) (fun _ _ => id)
      fun t ht => ht.imp hR) (fun _ => triple_pure (a := r.1) fun _ => id) t ht

/-- A message that cannot be written is abandoned. -/
theorem minds_publish {y : Client.Reaction (Option UInt16)} {r : Client.Request}
    (hy : ∀ c : Client, c.WF → y.Settles c fun _ acts c' => ∃ i, Steps c (.request r) i acts c') :
    Triple (Turn.Minds isOpen [] Any) (publish y) (fun _ => Turn.Minds isOpen [] Any)
      (Turn.Minds isOpen [] Any) := by
  refine Triple.bind (Q := fun r => Turn.Minds isOpen r.2 Any) (triple_ask fun t ht => ?_)
    fun r => ?_
  · rcases hy _ ht.wf with hrefuse | ⟨a, acts, c', hrun, i, hs⟩
    · obtain ⟨e, hrun⟩ := hrefuse.run
      rw [hrun]
      exact ht
    · rw [hrun.run_ok]
      exact ht.follow (follows_minor (by trivial) id ht.wf hs trivial)
  refine Triple.bind (Triple.catching (minds_carryOutAll fun _ _ _ => trivial) fun e => ?_)
    fun _ => triple_pure fun _ => id
  refine Triple.bind (Q := fun _ => Turn.Minds isOpen [] Any) ?_ fun _ => triple_throw fun _ => id
  cases r.1 with
  | none => exact triple_pure fun _ => Turn.Minds.any
  | some n =>
    refine Triple.bind (Q := fun _ => Turn.Shut isOpen) (triple_ask fun t ht => ?_) fun r => ?_
    · obtain ⟨acts, c', hrun, hs⟩ := Client.Reaction.runs_abandon ht.wf.session n
      have hs : Steps t.link.client (.abandon n) none acts c' := .abandon hs
      rw [hrun.run_ok]
      exact (ht.follow (follows_minor (by trivial)
        (fun hp => (hs.plain trivial).2.trans hp) ht.wf hs ht.client)).drop
        (hs.plain trivial).1.2
    · refine Triple.imp (triple_forM (I := fun _ => Turn.Minds isOpen [] (·.phase = .disconnected))
        (fun x _ => minds_persist x) _) (fun _ => id) (fun _ _ => Turn.Minds.any) fun _ => id

theorem minds_request (r : Client.Request) :
    Triple (Turn.Minds isOpen [] Any) (request r) (fun _ => Turn.Minds isOpen [] Any)
      (Turn.Minds isOpen [] Any) := by
  by_cases hr : r.IsPublish
  · obtain ⟨y, f, hrequest, hy⟩ := request_publish hr
    rw [hrequest]
    refine Triple.map (minds_publish (r := r) fun c hc => ?_) fun _ _ => id
    exact (hy c hc).imp fun _ _ _ => And.left
  · rw [request_react hr]
    refine minds_react (fun _ _ => trivial) fun c hc _ => ?_
    refine Or.imp (fun hr => ⟨hr, trivial⟩) ?_ (Client.Reaction.settles_request hc.session r)
    exact fun ⟨a, acts, c', hrun, hs⟩ =>
      ⟨a, acts, c', hrun, follows_minor (by trivial) id hc hs trivial⟩

theorem minds_disconnect :
    Triple (Turn.Minds isOpen [] Any) Task.disconnect (fun _ => Turn.Minds isOpen [] Any)
      (Turn.Minds isOpen [] Any) := by
  refine Triple.bind triple_read fun l => ?_
  refine minds_react (fun _ _ => trivial) fun c hc _ => ?_
  refine Or.imp (fun hr => ⟨hr, trivial⟩) ?_ (Client.Reaction.settles_disconnect l.now)
  exact fun ⟨a, acts, c', hrun, hs⟩ => ⟨a, acts, c', hrun, Steps.wf hc (.disconnect hs),
    .inl hs.closes, fun _ _ _ => trivial⟩

/-! ## Waiting -/

/-- While a packet is waited for, nothing happens but the end of the connection. -/
theorem minds_onDeadline {phase : Client.Phase} :
    Triple (Turn.Minds isOpen [] (·.phase = phase)) onDeadline
      (fun _ => Turn.Minds isOpen [] (·.phase = phase)) (Turn.Shut isOpen) := by
  refine Triple.bind triple_read fun l => ?_
  cases l.keepAlive with
  | none => exact triple_pure fun _ => id
  | some k =>
    dsimp only
    cases k.poll l.now with
    | idle => exact triple_pure fun _ => id
    | sendPing =>
      refine Triple.bind (minds_react (fun _ => id) fun c hc hp => .inr ?_)
        fun _ => minds_update fun _ => rfl
      obtain ⟨acts, c', hrun, hs⟩ := Client.Reaction.runs_ping (c := c)
      have hs : Steps c .ping none acts c' := .ping hs
      exact ⟨(), acts, c', hrun, follows_minor (by trivial)
        (fun hp => (hs.plain trivial).2.trans hp) hc hs hp⟩
    | timedOut => exact minds_loseWith _

theorem minds_packetUpTo {phase : Client.Phase} (fuel : Nat) :
    Triple (Turn.Minds isOpen [] (·.phase = phase)) (packetUpTo fuel)
      (fun _ => Turn.Minds isOpen [] (·.phase = phase)) (Turn.Shut isOpen) := by
  induction fuel with
  | zero => exact minds_loseWith _
  | succ fuel ih =>
    refine Triple.bind triple_read fun l => ?_
    cases Stream.next l.client.version l.client.incomingLimit l.received with
    | packet p rest =>
      exact Triple.bind (minds_update fun _ => rfl) fun _ => triple_pure fun _ => id
    | refused e rest => exact Triple.bind (minds_update fun _ => rfl) fun _ => minds_loseWith e
    | incomplete =>
      dsimp only
      obtain ⟨wake, transport, now⟩ := l.transport.read (l.keepAlive.bind (·.deadline)) l.now
      refine Triple.bind (minds_update fun _ => rfl) fun _ => ?_
      cases wake with
      | octets b =>
        cases b with
        | nil => exact minds_loseWith _
        | cons x b => exact Triple.bind (minds_update fun _ => rfl) fun _ => ih
      | failed e => exact minds_loseWith e
      | deadline => exact minds_onDeadline.bind fun _ => ih

theorem minds_packet {phase : Client.Phase} :
    Triple (Turn.Minds isOpen [] (·.phase = phase)) packet
      (fun _ => Turn.Minds isOpen [] (·.phase = phase)) (Turn.Shut isOpen) :=
  Triple.bind triple_read fun _ => minds_packetUpTo _

/-- A packet is taken, and the connection is closed if it ends with that. -/
theorem minds_receive {phase : Client.Phase} (p : Packet) (hQ : ∀ c, c.phase = .disconnected → Q c)
    (hreceive : ∀ {c acts c'}, c.phase = phase → Steps c (.receive p) none acts c' →
      .close ∈ acts ∨ Q c') :
    Triple (Turn.Minds isOpen [] (·.phase = phase)) (react (.receive p))
      (fun _ => Turn.Minds isOpen [] Q) (Turn.Shut isOpen) := by
  refine minds_react (fun _ => id) fun c hc hp => .inr ?_
  obtain ⟨acts, c', hrun, hs⟩ := Client.Reaction.runs_receive hc p
  refine ⟨(), acts, c', hrun, hs.wf hc, ?_, fun _ => hQ⟩
  by_cases hclose : .close ∈ acts
  · exact .inl hclose
  · exact .inr ⟨(hreceive hp hs).resolve_left hclose, fun hp' =>
      (hs.closes hp').resolve_right hclose⟩

/-! ## Connections -/

/-- What `connect` does once the transport is open. -/
def attempt (o : ConnectOptions) : Task (Bool × Reason) := do
  react (.connect o (← link).now)
  let p ← packet
  react (.receive p)
  match p with
  | .connAck a =>
    if (← client).isConnected then return (a.sessionPresent, a.reason)
    throw (.refused a.reason)
  | _ => throw (.connection .closedBeforeConnAck)

theorem exec_connect {l : Link} (hp : l.client.phase = .disconnected)
    (hopen : l.transport.connect = .ok ()) (o : ConnectOptions) :
    exec (connect o) { link := l } =
      exec (attempt o) { link := { l with received := [] }, traffic := #[.connect] } := by
  rw [connect, exec_client, if_neg (by simp [Client.isDisconnected, hp]), exec_update, exec_note,
    exec_link]
  exact exec_bind_ok (a := ()) (congrArg (·, _) hopen)

/-- Once CONNECT is asked for, nothing but a CONNACK that is accepted leaves the transport open. -/
theorem minds_attempt {o : ConnectOptions} {frame : Bytes}
    (hf : (Packet.connect (.ofOptions o)).toBytes = .ok frame) :
    Triple (fun t => t.link.client.WF ∧ t.link.client.phase = .disconnected) (attempt o)
      (fun _ => Turn.Minds isOpen [] Any) (Turn.Shut isOpen) := by
  refine Triple.bind triple_read fun l => ?_
  refine Triple.bind (Q := fun _ => Turn.Minds isOpen [] (·.phase = .connecting)) ?_ fun _ => ?_
  · refine Triple.bind (Q := fun r t => Turn.Minds isOpen r.2 (·.phase = .connecting) t ∧
      .close ∉ r.2) (triple_ask fun t ht => ?_) fun r => ?_
    · obtain ⟨acts, c', hrun, hs⟩ := Client.Reaction.runs_connect ht.2 hf l.now
      obtain ⟨hplain, hphase⟩ := hs.plain
      rw [hrun.run_ok]
      exact ⟨⟨Steps.wf ht.1 (.connect hs), .inr ⟨hphase, by simp [hphase]⟩⟩, hplain.2⟩
    · rintro t ⟨ht, hclose⟩
      exact Triple.bind (minds_carryOutAll fun h => absurd h hclose)
        (fun _ => triple_pure (a := r.1) fun _ => id) t ht
  refine Triple.bind minds_packet fun p => ?_
  refine Triple.bind (minds_receive p (Q := fun c =>
    c.phase = .disconnected ∨ c.isConnected ∧ p.packetType = .connAck) (fun _ => .inl)
    fun hp hs => (hs.closes_or_accepts hp).imp_right .inr) fun _ => ?_
  split
  · refine Triple.bind triple_client fun c => triple_ite (fun _ => ?_) fun hconn => ?_
    · exact triple_pure fun t ht => ht.1.any
    · refine triple_throw fun t ht => ⟨ht.1.wf, .inr ⟨?_, ht.1.shut⟩⟩
      exact ht.1.client.resolve_right fun h => hconn (ht.2 ▸ h.1)
  · rename_i hnone
    refine triple_throw fun t ht => ht.imp fun c hc => hc.resolve_right fun h => ?_
    cases p with
    | connAck a => exact hnone a rfl
    | ack kind => cases kind <;> cases h.2
    | _ => cases h.2

theorem minds_connect {l : Link} {o : ConnectOptions} {frame : Bytes} (hl : l.client.WF)
    (hp : l.client.phase = .disconnected) (hopen : l.transport.connect = .ok ())
    (hf : (Packet.connect (.ofOptions o)).toBytes = .ok frame) :
    Triple (· = { link := l }) (connect o) (fun _ => Turn.Minds isOpen [] Any)
      (Turn.Shut isOpen) := by
  rintro t rfl
  rw [exec_connect hp hopen]
  exact minds_attempt hf _ ⟨hl, hp⟩

/-! ## Events -/

theorem minds_pollUpTo (fuel : Nat) :
    Triple (Turn.Minds isOpen [] Any) (pollUpTo fuel) (fun _ => Turn.Minds isOpen [] Any)
      (Turn.Minds isOpen [] Any) := by
  induction fuel with
  | zero => exact (minds_loseWith _).imp (fun _ => id) (fun _ _ => id) fun _ => Turn.Minds.any
  | succ fuel ih =>
    refine Triple.bind triple_read fun l => ?_
    cases l.events with
    | cons v events =>
      exact Triple.bind (minds_update fun _ => rfl) fun _ => triple_pure fun _ => id
    | nil =>
      refine Triple.bind triple_client fun c => triple_ite (fun _ => ?_) fun _ => ?_
      · exact Triple.bind (Q := fun _ _ => False) (triple_throw fun _ ht => ht.1)
          fun _ _ => False.elim
      refine Triple.bind (Q := fun _ => Turn.Minds isOpen [] (·.phase = c.phase))
        (minds_packet.imp (fun t ht => ⟨ht.1.wf, .inr ⟨by rw [ht.2], ht.1.shut⟩⟩) (fun _ _ => id)
          fun _ => Turn.Minds.any) fun p => ?_
      have hreceive : Triple (Turn.Minds isOpen [] (·.phase = c.phase))
          (react (.receive p) >>= fun _ => pollUpTo fuel) (fun _ => Turn.Minds isOpen [] Any)
          (Turn.Minds isOpen [] Any) := by
        refine Triple.bind ((minds_receive p (fun _ _ => trivial) fun _ _ => .inr trivial).imp
          (fun _ => id) (fun _ _ => id) fun _ => Turn.Minds.any) fun _ => ih
      exact triple_ite (fun _ => Triple.bind (minds_update fun _ => rfl) fun _ => hreceive)
        fun _ => hreceive

theorem minds_poll :
    Triple (Turn.Minds isOpen [] Any) poll (fun _ => Turn.Minds isOpen [] Any)
      (Turn.Minds isOpen [] Any) :=
  Triple.bind (Q := fun _ => Turn.Minds isOpen [] Any)
    (Triple.bind triple_read fun _ => triple_pure fun _ => id) fun _ => minds_pollUpTo _

theorem leads_pollAllUpTo_minds (fuel : Nat) :
    Leads (Turn.Minds isOpen [] Any) (pollAllUpTo fuel) (Turn.Minds isOpen [] Any) := by
  induction fuel with
  | zero => exact leads_pure fun _ => id
  | succ fuel ih =>
    refine minds_poll.leads (fun v => ?_) fun e => leads_pure fun _ => id
    exact leads_get_bind fun t => ih.bind fun r => leads_pure fun _ => id

theorem leads_runUpTo_minds (goOn : List Client.Event → Client.Event → Bool) (fuel : Nat)
    (seen : List Client.Event) :
    Leads (Turn.Minds isOpen [] Any) (runUpTo goOn fuel seen) (Turn.Minds isOpen [] Any) := by
  induction fuel generalizing seen with
  | zero => exact leads_pure fun _ => id
  | succ fuel ih =>
    refine minds_poll.leads (fun v => ?_) fun e => ?_
    · refine leads_get_bind fun t => leads_ite (fun _ => leads_ite (fun _ => ?_) fun _ => ?_)
        fun _ => leads_ite (fun _ => leads_pure fun _ => id) fun _ => ih _
      · exact minds_disconnect.leads (fun _ => leads_pure fun _ => id) fun e =>
          leads_pure fun _ => id
      · exact leads_pure fun _ => id
    · split
      · exact leads_pure fun _ => id
      · exact leads_get_bind fun t => leads_modify_bind (fun _ ht => ht.congr rfl rfl) fun _ =>
          leads_pure fun _ => id
      · rename_i hevent
        cases hevent

/-! ## Operations -/

/-- What does not open a connection keeps to it. -/
theorem minds_perform {op : Op} (hop : ∀ o, op ≠ .connect o) :
    Triple (Turn.Minds isOpen [] Any) op.perform (fun _ => Turn.Minds isOpen [] Any)
      (Turn.Minds isOpen [] Any) := by
  have hdone : ∀ {r : Reply}, Triple (Turn.Minds isOpen [] Any) (pure r)
      (fun _ => Turn.Minds isOpen [] Any) (Turn.Minds isOpen [] Any) := triple_pure fun _ => id
  cases op with
  | connect o => exact absurd rfl (hop o)
  | arrive | replaceTransport | advance =>
    exact Triple.bind (minds_update fun _ => rfl) fun _ => hdone
  | request r => exact Triple.map (minds_request r) fun _ _ => id
  | restore id data =>
    refine Triple.bind (Q := fun _ => Turn.Minds isOpen [] Any) (triple_ask fun t ht => ?_)
      fun _ => hdone
    rcases Client.Reaction.settles_restore (c := t.link.client) id data with hrefuse |
      ⟨u, acts, c', hrun, hs⟩
    · obtain ⟨e, hrun⟩ := hrefuse.run
      rw [hrun]
      exact ht
    · have hs : Steps t.link.client (.restore id data) none acts c' := .restore hs
      rw [hrun.run_ok]
      have hminor : Client.Op.Minor (.restore id data) := trivial
      exact (ht.follow (follows_minor (Q := Any) hminor (fun _ => trivial) ht.wf hs trivial)).drop
        (hs.plain hminor).1.2
  | poll => exact Triple.map minds_poll fun _ _ => id
  | pollAll =>
    exact Triple.bind (Q := fun _ => Turn.Minds isOpen [] Any)
      (leads_get_bind fun _ => leads_pollAllUpTo_minds _).triple fun _ => hdone
  | run stopAfter =>
    exact Triple.bind (Q := fun _ => Turn.Minds isOpen [] Any)
      (leads_get_bind fun _ => leads_runUpTo_minds _ _ _).triple fun _ => hdone
  | disconnect => exact Triple.bind minds_disconnect fun _ => hdone
  | forceDisconnect =>
    exact Triple.bind (minds_lose.pre fun _ => Turn.Minds.wf) fun _ =>
      triple_pure fun _ => Turn.Minds.any

end Task

variable {l : Link} {o : ConnectOptions} {isOpen : Bool}

/-- A reaction that is refused has no actions. -/
theorem exec_react_error {α : Type} {y : Client.Reaction α} {t : Turn} {e : Error}
    (h : y.run t.link.client = ⟨.error e, [], t.link.client⟩) :
    exec (react y) t = (.error e, t) := by
  refine exec_bind_error ?_
  rw [exec_ask, h]
  rfl

/-- The transport is opened before CONNECT is written down. If that cannot be done, the transport is
left as it is. -/
theorem step_connect_unsayable (hp : l.client.phase = .disconnected)
    (hopen : l.transport.connect = .ok ()) {e : Error}
    (hf : (Packet.connect (.ofOptions o)).toBytes = .error e) :
    l.step (.connect o) = ⟨.error e, [.connect], [], { l with received := [] }⟩ := by
  have hrun : (Client.Reaction.connect o l.now).Runs l.client (.error e) [] l.client := by
    refine Client.Reaction.runs_client.bind ?_
    rw [if_neg (by simp [Client.isDisconnected, hp])]
    exact (Client.Reaction.runs_lift_error hf).bind_error
  have hconnect : exec (connect o) { link := l } =
      (.error e, { link := { l with received := [] }, traffic := #[.connect] }) := by
    rw [exec_connect hp hopen, attempt, exec_link]
    exact exec_bind_error (exec_react_error hrun.run_error)
  exact step_of_exec (.connect o) (exec_bind_error hconnect)

/-- CONNECT can be written down, if an operation asks for that. -/
def Op.Sayable (op : Op) : Prop :=
  ∀ o, op = .connect o → ∃ frame, (Packet.connect (.ofOptions o)).toBytes = .ok frame

/-- Whether the transport is open after an operation, if `isOpen` says so of it before. One that
cannot be opened never is, and one that takes the place of another is not open yet. -/
def opens (l : Link) (isOpen : Bool) (op : Op) : Bool :=
  match op, l.transport.connect with
  | .replaceTransport _, _ | _, .error _ => false
  | _, .ok () => Traffic.leavesOpen isOpen (l.step op).traffic

theorem opens_eq (l : Link) (isOpen : Bool) (op : Op) :
    l.opens isOpen op = false ∨ l.transport.connect = .ok () ∧
      l.opens isOpen op = Traffic.leavesOpen isOpen (l.step op).traffic := by
  rcases hopen : l.transport.connect with e | u <;> cases op <;> simp [opens, hopen]

/-- Whether the transport is open after operations. -/
def isOpenAfter (l : Link) (isOpen : Bool) : List Op → Bool
  | [] => isOpen
  | op :: ops => (l.step op).link.isOpenAfter (l.opens isOpen op) ops

/-- A call of `connect` with a CONNECT that can be written down. -/
theorem minds_step_connect (isOpen : Bool) (hl : l.client.WF) (hp : l.client.phase = .disconnected)
    (hopen : l.transport.connect = .ok ()) {frame : Bytes}
    (hf : (Packet.connect (.ofOptions o)).toBytes = .ok frame) :
    ((l.step (.connect o)).link.client.phase = .disconnected →
      Traffic.leavesOpen isOpen (l.step (.connect o)).traffic = false) ∧
    ∀ e, (l.step (.connect o)).reply = .error e →
      (l.step (.connect o)).link.client.phase = .disconnected := by
  have hperform : Triple (· = { link := l }) (Op.connect o).perform
      (fun _ => Turn.Minds isOpen [] Any) (Turn.Shut isOpen) :=
    Triple.bind (minds_connect hl hp hopen hf) fun _ => triple_pure fun _ => id
  obtain ⟨t, hlink, htraffic, -, hend⟩ := hperform.step rfl
  rw [hlink, htraffic]
  split at hend
  · rename_i hr
    rw [hr]
    exact ⟨hend.shut, fun e he => by cases he⟩
  · exact ⟨hend.shut, fun _ _ => hend.client⟩

/-- After an operation the transport is closed unless there is a connection or one is asked for. -/
theorem closed_step (hl : l.client.WF)
    (hclosed : l.client.phase = .disconnected → isOpen = false) {op : Op} (hop : op.Sayable)
    (hp : (l.step op).link.client.phase = .disconnected) : l.opens isOpen op = false := by
  rcases l.opens_eq isOpen op with hopens | ⟨hopen, hopens⟩
  · exact hopens
  rw [hopens]
  by_cases hconnect : ∃ o, op = .connect o
  · obtain ⟨o, rfl⟩ := hconnect
    obtain ⟨frame, hf⟩ := hop o rfl
    by_cases hp' : l.client.phase = .disconnected
    · exact (minds_step_connect isOpen hl hp' hopen hf).1 hp
    · rw [step_connect_refused hp'] at hp
      exact absurd hp hp'
  · obtain ⟨t, hlink, htraffic, -, hend⟩ :=
      (minds_perform fun o ho => hconnect ⟨o, ho⟩).step ⟨hl, .inr ⟨trivial, hclosed⟩⟩
    rw [hlink] at hp
    rw [htraffic]
    split at hend <;> exact hend.shut hp

theorem closed_after (hl : l.client.WF) (hclosed : l.client.phase = .disconnected → isOpen = false)
    {ops : List Op} (hops : ∀ op ∈ ops, op.Sayable)
    (hp : (l.after ops).client.phase = .disconnected) : l.isOpenAfter isOpen ops = false := by
  induction ops generalizing l isOpen with
  | nil => exact hclosed hp
  | cons op ops ih =>
    obtain ⟨hop, hops⟩ := List.forall_mem_cons.1 hops
    exact ih (wf_step hl op) (closed_step hl hclosed hop) hops hp

/-- A client at work over any transports leaves none open that it does not use, as long as each
CONNECT that is asked for can be written down. -/
theorem closed_while_disconnected (options : ClientOptions) (transport : Transport)
    (persists : Bool) {ops : List Op} (hops : ∀ op ∈ ops, op.Sayable)
    (hp : (after { client := .new options, transport, persists } ops).client.phase =
      .disconnected) :
    isOpenAfter { client := .new options, transport, persists } false ops = false :=
  closed_after (Client.wf_new options) (fun _ => rfl) hops hp

/-- A call of `connect` that opens a transport and fails leaves the client disconnected. If CONNECT
can be written down, the transport is closed again, and it is closed whenever there is no connection
later on. If not, it stays open. -/
theorem failed_connect_closes (options : ClientOptions) (transport : Transport) (persists : Bool)
    {before : List Op} (hl : l = after { client := .new options, transport, persists } before)
    (hp : l.client.phase = .disconnected) (hopen : l.transport.connect = .ok ()) {e : Error}
    (he : (l.step (.connect o)).reply = .error e) :
    (l.step (.connect o)).link.client.phase = .disconnected ∧
      match (Packet.connect (.ofOptions o)).toBytes with
      | .ok _ => .close ∈ (l.step (.connect o)).traffic ∧
          ∀ isOpen later, (∀ op ∈ later, Op.Sayable op) →
            (l.after (.connect o :: later)).client.phase = .disconnected →
              l.isOpenAfter isOpen (.connect o :: later) = false
      | .error e' => e = e' ∧ (l.step (.connect o)).traffic = [.connect] := by
  have hwf : l.client.WF := hl ▸ wf_after (Client.wf_new options) before
  split
  · rename_i frame hf
    have hgone := (minds_step_connect true hwf hp hopen hf).2 e he
    refine ⟨hgone, Traffic.close_mem ((minds_step_connect _ hwf hp hopen hf).1 hgone),
      fun isOpen later hlater => closed_after (wf_step hwf _) (fun _ => ?_) hlater⟩
    simp only [opens, hopen]
    exact (minds_step_connect _ hwf hp hopen hf).1 hgone
  · rename_i e' hf
    rw [step_connect_unsayable hp hopen hf] at he ⊢
    cases he
    exact ⟨hp, rfl, rfl⟩

/-- A transport over which the server refuses every connection. -/
def refusing : Transport := { script := [.data [0x20, 3, 0, 0x87, 0]] }

/-- The server refuses a connection. -/
theorem failed_connect_closes_refused :
    let l : Link := { client := .new {}, transport := refusing }
    let o : ConnectOptions := { clientId := "c" }
    (l.step (.connect o)).traffic =
        [.connect, .write [16, 14, 0, 4, 77, 81, 84, 84, 5, 2, 0, 60, 0, 0, 1, 99], .close] ∧
      (l.step (.connect o)).link.client.phase = .disconnected ∧
      ∀ isOpen later, (∀ op ∈ later, Op.Sayable op) →
        (l.after (.connect o :: later)).client.phase = .disconnected →
          l.isOpenAfter isOpen (.connect o :: later) = false := by
  intro l o
  have he : (l.step (.connect o)).reply = .error (.refused .notAuthorized) := by cbv
  have hf : (Packet.connect (.ofOptions o)).toBytes =
      .ok [16, 14, 0, 4, 77, 81, 84, 84, 5, 2, 0, 60, 0, 0, 1, 99] := by cbv
  obtain ⟨hgone, hclosed⟩ :=
    failed_connect_closes (l := l) {} refusing true (show l = after _ [] from rfl) rfl rfl he
  rw [hf] at hclosed
  exact ⟨by cbv, hgone, hclosed.2⟩

/-- A client identifier that is too long for a field cannot be written down. -/
theorem toBytes_connect_long {s : String} (hs : Field.maxLength < s.utf8ByteSize) :
    (Packet.connect (.ofOptions { clientId := s })).toBytes =
      .error (.stringTooLong s.utf8ByteSize) := by
  have htext : Field.encodeText s = .fail (.stringTooLong s.utf8ByteSize) := by
    simp only [Field.encodeText, Utf8.length_encode]
    exact if_neg (Nat.not_le.2 hs)
  have hbody : (Connect.ofOptions { clientId := s }).encodeBody.error =
      some (.stringTooLong s.utf8ByteSize) := by
    simp only [Connect.encodeBody, Connect.ofOptions, htext]
    rfl
  simp only [Packet.toBytes, Packet.encode, Packet.encodeBody, hbody]
  rfl

theorem utf8ByteSize_replicate (n : Nat) :
    (String.ofList (List.replicate n 'a')).utf8ByteSize = n := by
  rw [String.utf8ByteSize_ofList]
  induction n with
  | zero => rfl
  | succ n ih => rw [List.replicate_succ, String.utf8Len_cons, ih]; rfl

/-- With such an identifier `connect` opens the transport, fails, and does not close it. -/
theorem failed_connect_leaves_open :
    let l : Link := { client := .new {} }
    let o : ConnectOptions := { clientId := String.ofList (List.replicate 65536 'a') }
    l.client.phase = .disconnected ∧ l.transport.connect = .ok () ∧
      (l.step (.connect o)).reply = .error (.stringTooLong 65536) ∧
      .close ∉ (l.step (.connect o)).traffic ∧ l.isOpenAfter false [.connect o] = true := by
  intro l o
  have hf : (Packet.connect (.ofOptions o)).toBytes = .error (.stringTooLong 65536) := by
    have hlong := toBytes_connect_long (s := String.ofList (List.replicate 65536 'a'))
      (by rw [utf8ByteSize_replicate]; decide)
    rwa [utf8ByteSize_replicate] at hlong
  have hstep := step_connect_unsayable (l := l) rfl rfl hf
  refine ⟨rfl, rfl, by rw [hstep], by rw [hstep]; simp, ?_⟩
  simp only [isOpenAfter, opens]
  rw [hstep]
  rfl

end Link

end Mqtt
