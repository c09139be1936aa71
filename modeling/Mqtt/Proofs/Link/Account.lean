import Mqtt.Link.Operation
import Mqtt.Proofs.Client.Closing
import Mqtt.Proofs.Link.Task

/-!
# What the application gets

An `Account` says what is known of a link in the middle of its work: of the events that the
application has got, the actions still to be carried out, the client, and the events that wait. It
is `Kept` if nothing that a link does makes it false, apart from opening a connection: no action
that is carried out, no reaction of the client, no frame that is refused, no event that is taken. It
is `Steady` if it says as well that the client is well-formed.

A steady account holds after every operation if it holds before it: `Account.Steady.step`. Whether
opening a connection keeps to it is a question of its own (`Account.Kept.step_connect`), so a run in
which none is opened leaves the account true (`Account.Steady.after`).
-/

namespace Mqtt

namespace Link

open Link.Task
open Client (Loses Lasting Steps Disconnects Plain eventsOf)

/-- What is known of a link in the middle of its work, from what the application has got, the
actions to be carried out, the client and the events that wait. -/
abbrev Account := List Client.Event → List Client.Action → Client → List Client.Event → Prop

/-- A DISCONNECT could not be written. -/
def DisconnectRefused (traffic : List Traffic) : Prop :=
  ∃ frame, PacketType.disconnect.Heads frame ∧ .refusedWrite frame ∈ traffic

/-- An account that nothing makes false but the opening of a connection. It may depend on whether a
DISCONNECT could not be written. -/
structure Account.Kept (P : Prop → Account) : Prop where
  mono {R R' : Prop} {got acts c es} : (R → R') → P R got acts c es → P R' got acts c es
  pass {R got a acts c es} : Plain [a] → P R got (a :: acts) c es → P R got acts c es
  emit {R got v acts c es} : P R got (.emit v :: acts) c es → P R got acts c (es ++ [v])
  close {R got acts c es now lost c'} : P R got (.close :: acts) c es → Loses c now lost c' →
    P R got acts c' (es ++ eventsOf lost)
  /-- The actions behind a frame that is refused are dropped. -/
  refused {R got frame acts c es now lost c'} : P R got (.send frame :: acts) c es →
    Loses c now lost c' →
    P (R ∨ PacketType.disconnect.Heads frame) got [] c' (es ++ eventsOf lost)
  lost {R got c es now lost c'} : P R got [] c es → Loses c now lost c' →
    P R got [] c' (es ++ eventsOf lost)
  minor {R got c es op a acts c'} : P R got [] c es → op.Minor → Steps c op a acts c' →
    P R got acts c' es
  receive {R got c es p a acts c'} : P R got [] c es → c.phase ≠ .disconnected →
    Steps c (.receive p) a acts c' → P R got acts c' es
  disconnect {R got c es now acts c'} : P R got [] c es → Disconnects c now acts c' →
    P R got acts c' es
  take {R got v c es} : P R got [] c (v :: es) → P R (got ++ [v]) [] c es
  /-- An error is told when it ends the waiting for an event. -/
  tell {R got c} (e : Error) : P R got [] c [] → c.isConnected → P R (got ++ [.error e]) [] c []

/-- An account of a well-formed client. -/
structure Account.Steady (P : Prop → Account) : Prop extends Account.Kept P where
  wf {R got acts c es} : P R got acts c es → c.WF

/-- A client at work stays well-formed, so an account may say so. -/
theorem Account.Kept.steady {P : Prop → Account} (h : Kept P) :
    Steady fun R got acts c es => c.WF ∧ P R got acts c es where
  wf := And.left
  mono hR := And.imp_right (h.mono hR)
  pass ha := And.imp_right (h.pass ha)
  emit := And.imp_right h.emit
  close hP hl := ⟨Steps.wf hP.1 (.connectionLost hl), h.close hP.2 hl⟩
  refused hP hl := ⟨Steps.wf hP.1 (.connectionLost hl), h.refused hP.2 hl⟩
  lost hP hl := ⟨Steps.wf hP.1 (.connectionLost hl), h.lost hP.2 hl⟩
  minor hP hop hs := ⟨hs.wf hP.1, h.minor hP.2 hop hs⟩
  receive hP hp hs := ⟨hs.wf hP.1, h.receive hP.2 hp hs⟩
  disconnect hP hs := ⟨Steps.wf hP.1 (.disconnect hs), h.disconnect hP.2 hs⟩
  take := And.imp_right h.take
  tell e hP hconn := ⟨hP.1, h.tell e hP.2 hconn⟩

/-! ## What is given -/

/-- The events that a reply gives to the application. -/
def Reply.given : Reply → List Client.Event
  | .event v => [v]
  | .events l _ => l.map (·.2)
  | .handled l _ => l
  | .nothing | .done _ | .accepted .. => []

/-- The events that an operation gives to the application. -/
def Outcome.given (o : Outcome) : List Client.Event :=
  match o.reply with
  | .ok r => r.given
  | .error _ => []

/-- The events that operations give to the application, in order. -/
def given (l : Link) : List Op → List Client.Event
  | [] => []
  | op :: ops => (l.step op).given ++ (l.step op).link.given ops

/-- What operations let reach the transport, in order. -/
def trafficOf (l : Link) : List Op → List Traffic
  | [] => []
  | op :: ops => (l.step op).traffic ++ (l.step op).link.trafficOf ops

/-- What is known of the client and the events that wait. -/
def Turn.Meets (I : Client → List Client.Event → Prop) (t : Turn) : Prop :=
  I t.link.client t.link.events

/-- An account holds with nothing left to do, or would if a DISCONNECT that was refused had been
refused before. -/
def Turn.Ends (P : Prop → Account) (R : Prop) (got : List Client.Event) (t : Turn) : Prop :=
  t.Meets (P (R ∨ DisconnectRefused t.traffic.toList) got [])

namespace Task

variable {α : Type} {I I' : Client → List Client.Event → Prop} {E : Turn → Prop}

/-! ## Tasks that tell nothing -/

theorem meets_update {f : Link → Link} (hc : ∀ l, (f l).client = l.client)
    (he : ∀ l, (f l).events = l.events) :
    Triple (Turn.Meets I) (update f) (fun _ => Turn.Meets I) E :=
  triple_update fun t ht => by
    rw [Turn.Meets, hc, he]
    exact ht

theorem meets_persist (x : Change) {T : List Traffic → Prop} :
    Triple (fun t => t.Meets I ∧ T t.traffic.toList) (persist x)
      (fun _ t => t.Meets I ∧ T t.traffic.toList) E := by
  refine Triple.bind triple_read fun l => ?_
  split
  · exact fun _ => id
  · exact triple_pure fun _ => id

theorem meets_lose_noting (hI : ∀ {c es now acts c'}, I c es → Loses c now acts c' →
      I' c' (es ++ eventsOf acts)) {T : List Traffic → Prop}
    (hT : ∀ traffic, T traffic → T (traffic ++ [.close])) :
    Triple (fun t => t.Meets I ∧ T t.traffic.toList) lose
      (fun _ t => t.Meets I' ∧ T t.traffic.toList) E := by
  unfold lose
  refine Triple.bind (Q := fun _ t => t.Meets I ∧ T t.traffic.toList)
    (triple_update fun _ => id) fun _ => ?_
  refine Triple.bind (Q := fun _ t => t.Meets I ∧ T t.traffic.toList)
    (triple_note fun t ht => ⟨ht.1, ?_⟩) fun _ => ?_
  · rw [Array.toList_push]
    exact hT _ ht.2
  refine Triple.bind triple_read fun l => Triple.bind triple_read fun l => ?_
  -- once the client is told, the events are still to be queued
  refine Triple.bind (Q := fun r t => I' t.link.client (t.link.events ++ eventsOf r.2) ∧
    T t.traffic.toList) (triple_ask fun t ht => ?_) fun r => triple_update fun _ => id
  obtain ⟨acts, c', hrun, h⟩ := Client.Reaction.runs_connectionLost (c := t.link.client) l.now
  rw [hrun.run_ok]
  exact ⟨hI ht.1 h, ht.2⟩

theorem meets_lose (hI : ∀ {c es now acts c'}, I c es → Loses c now acts c' →
      I' c' (es ++ eventsOf acts)) : Triple (Turn.Meets I) lose (fun _ => Turn.Meets I') E :=
  ((meets_lose_noting (T := fun _ => True) hI fun _ => id).pre fun _ ht => ⟨ht, trivial⟩).post
    fun _ _ => And.left

theorem meets_write (hI : ∀ {c es now acts c'}, I c es → Loses c now acts c' →
      I' c' (es ++ eventsOf acts)) (frame : Bytes) :
    Triple (Turn.Meets I) (write frame) (fun _ => Turn.Meets I)
      (fun t => t.Meets I' ∧ .refusedWrite frame ∈ t.traffic.toList) := by
  unfold write
  refine Triple.bind triple_read fun l => ?_
  rcases hw : l.transport.write frame with ⟨e | u, x, transport⟩
  · obtain ⟨rfl, -⟩ := Transport.unchanged_of_write hw
    refine Triple.bind (Q := fun _ t => t.Meets I ∧ .refusedWrite frame ∈ t.traffic.toList)
      (triple_note fun t ht => ⟨ht, by simp⟩) fun _ => ?_
    refine Triple.bind (Q := fun _ t => t.Meets I ∧ .refusedWrite frame ∈ t.traffic.toList)
      (fun _ => id) fun _ => ?_
    refine Triple.bind (meets_lose_noting hI fun traffic => List.mem_append_left _) fun _ => ?_
    exact triple_throw fun _ => id
  · refine Triple.bind (Q := fun _ => Turn.Meets I) (fun _ => id) fun _ => ?_
    refine Triple.bind (meets_update (fun _ => rfl) fun _ => rfl) fun _ => ?_
    exact meets_update (fun _ => rfl) fun _ => rfl

end Task

/-! ## The next event -/

section Poll

variable {t : Turn}

theorem exec_poll (t : Turn) : ∃ n, exec poll t = exec (pollUpTo (n + 1)) t :=
  ⟨_, exec_bind_ok (show exec ahead t = (.ok _, t) from rfl)⟩

/-- An event that waits is taken. -/
theorem exec_poll_cons {v : Client.Event} {es : List Client.Event} (hes : t.link.events = v :: es) :
    exec poll t = (.ok v, { t with link := { t.link with events := es } }) := by
  obtain ⟨n, hpoll⟩ := exec_poll t
  rw [hpoll, pollUpTo, exec_link, hes]
  rfl

/-- Without a connection and events nothing is waited for. -/
theorem exec_poll_nil (hes : t.link.events = []) (hconn : t.link.client.isConnected = false) :
    exec poll t = (.error .notConnected, t) := by
  obtain ⟨n, hpoll⟩ := exec_poll t
  rw [hpoll, pollUpTo, exec_link, hes]
  dsimp only
  rw [exec_client, hconn]
  rfl

/-- Then a handler has seen all there is. -/
theorem run_runUpTo_nil (goOn : List Client.Event → Client.Event → Bool) (fuel : Nat)
    (seen : List Client.Event) (hes : t.link.events = [])
    (hconn : t.link.client.isConnected = false) :
    (runUpTo goOn (fuel + 1) seen).run t = ((seen, .ok ()), t) := by
  rw [runUpTo, StateT.run_bind, show StateT.run poll.run t = _ from exec_poll_nil hes hconn]
  rfl

end Poll

namespace Account.Steady

variable {α : Type} {P : Prop → Account} {R : Prop} {got : List Client.Event}
  {acts : List Client.Action} {Q : Client → Prop}

theorem ends (h : Steady P) {t : Turn} (ht : t.Meets (P R got [])) : t.Ends P R got :=
  h.mono .inl ht

/-! ## Actions -/

/-- Actions that report nothing may as well be dropped. -/
theorem pass_all (h : Steady P) (hacts : Plain acts) {c : Client} {es : List Client.Event}
    (hP : P R got acts c es) : P R got [] c es := by
  induction acts with
  | nil => exact hP
  | cons a acts ih =>
    obtain ⟨ha, hacts⟩ := Client.plain_cons.1 hacts
    exact ih hacts (h.pass ha hP)

theorem triple_loseWith (h : Steady P) (e : Error) {S : α → Turn → Prop} :
    Triple (Turn.Meets (P R got [])) (loseWith e : Task α) S (Turn.Ends P R got) := by
  exact Triple.bind (meets_lose h.lost) fun _ => triple_throw fun _ => h.ends

/-- Actions are carried out up to a frame that is refused. What is known of the client besides has
to outlast the connection if that is closed. -/
theorem triple_carryOutAll (h : Steady P) (hQ : .close ∈ acts → Lasting Q) :
    Triple (Turn.Meets fun c es => P R got acts c es ∧ Q c) (carryOutAll acts)
      (fun _ => Turn.Meets fun c es => P R got [] c es ∧ Q c) (Turn.Ends P R got) := by
  induction acts with
  | nil => exact triple_pure fun _ => id
  | cons a acts ih =>
    have hQ' : .close ∈ acts → Lasting Q := fun hmem => hQ (List.mem_cons_of_mem a hmem)
    refine Triple.bind (Q := fun _ => Turn.Meets fun c es => P R got acts c es ∧ Q c) ?_
      fun _ => ih hQ'
    cases a with
    | send frame =>
      refine (meets_write (fun hP hl => h.refused hP.1 hl) frame).imp (fun _ => id)
        (fun _ t ht => ⟨h.pass (by simp [Plain]) ht.1, ht.2⟩) fun t ⟨ht, hmem⟩ => ?_
      exact h.mono (Or.imp_right fun hf => ⟨frame, hf, hmem⟩) ht
    | emit v =>
      rw [carryOut, queue]
      exact triple_update fun t ht => ⟨h.emit ht.1, ht.2⟩
    | persist x =>
      refine (meets_persist (T := fun _ => True) x).imp (fun _ ht => ⟨ht, trivial⟩)
        (fun _ t ht => ⟨h.pass (by simp [Plain]) ht.1.1, ht.1.2⟩) fun _ => id
    | keepAlive seconds =>
      rw [carryOut]
      exact triple_update fun t ht => ⟨h.pass (by simp [Plain]) ht.1, ht.2⟩
    | close =>
      exact meets_lose fun hP hl => ⟨h.close hP.1 hl, hQ List.mem_cons_self hl hP.2⟩

/-! ## Reactions -/

/-- The client reacts, and what it wants done is carried out. What that starts from is given by
`I`. -/
theorem triple_react (h : Steady P) {y : Client.Reaction α} {I : Client → List Client.Event → Prop}
    (hI : ∀ {c es}, I c es → P R got [] c es)
    (hy : ∀ c es, I c es → y.Settles c fun _ acts c' =>
      P R got acts c' es ∧ Q c' ∧ (.close ∈ acts → Lasting Q)) :
    Triple (Turn.Meets I) (react y) (fun _ => Turn.Meets fun c es => P R got [] c es ∧ Q c)
      (Turn.Ends P R got) := by
  refine Triple.bind (Q := fun r t => (t.Meets fun c es => P R got r.2 c es ∧ Q c) ∧
    (.close ∈ r.2 → Lasting Q)) (triple_ask fun t ht => ?_) fun r => ?_
  · rcases hy _ _ ht with hrefuse | ⟨a, acts, c', hrun, hP, hQ, hlast⟩
    · obtain ⟨e, hrun⟩ := hrefuse.run
      rw [hrun]
      exact h.ends (hI ht)
    · rw [hrun.run_ok]
      exact ⟨⟨hP, hQ⟩, hlast⟩
  · intro t ht
    exact (h.triple_carryOutAll ht.2).bind (fun _ => triple_pure (a := r.1) fun _ => id) t ht.1

/-- What neither makes nor ends a connection nor takes a packet leaves things as they are. -/
theorem triple_minor (h : Steady P) {y : Client.Reaction α} {op : Client.Op} (hop : op.Minor)
    (hQ : ∀ c c', c'.phase = c.phase → Q c → Q c')
    (hy : ∀ c : Client, c.WF → y.Settles c fun _ acts c' => ∃ a, Steps c op a acts c') :
    Triple (Turn.Meets fun c es => P R got [] c es ∧ Q c) (react y)
      (fun _ => Turn.Meets fun c es => P R got [] c es ∧ Q c) (Turn.Ends P R got) := by
  refine h.triple_react And.left fun c es ⟨hP, hc⟩ =>
    (hy c (h.wf hP)).imp fun _ acts c' ⟨a, hs⟩ => ?_
  obtain ⟨hplain, hphase⟩ := hs.plain hop
  exact ⟨h.minor hP hop hs, hQ c c' hphase hc, fun hmem => absurd hmem hplain.2⟩

/-- A message is forgotten, and nobody is told. -/
theorem triple_abandon (h : Steady P) (id : Option UInt16) :
    Triple (Turn.Ends P R got) (abandon id) (fun _ => Turn.Ends P R got) (Turn.Ends P R got) := by
  cases id with
  | none => exact triple_pure fun _ => id
  | some n =>
    intro t ht
    -- the traffic stays as it is, so what a refused DISCONNECT decides does
    have hforget : Triple (fun t' => t'.Meets (P (R ∨ DisconnectRefused t.traffic.toList) got []) ∧
        t'.traffic.toList = t.traffic.toList) (abandon (some n))
        (fun _ => Turn.Ends P R got) (Turn.Ends P R got) := by
      refine Triple.bind (Q := fun _ t' =>
        t'.Meets (P (R ∨ DisconnectRefused t.traffic.toList) got []) ∧
          t'.traffic.toList = t.traffic.toList) (triple_ask fun t' ht' => ?_) fun r => ?_
      · obtain ⟨acts, c', hrun, hs⟩ := Client.Reaction.runs_abandon (h.wf ht'.1).session n
        rw [hrun.run_ok]
        have hs : Steps t'.link.client (.abandon n) none acts c' := .abandon hs
        exact ⟨h.pass_all (hs.plain trivial).1 (h.minor ht'.1 (by trivial) hs), ht'.2⟩
      · refine Triple.imp (triple_forM (I := fun _ t' =>
          t'.Meets (P (R ∨ DisconnectRefused t.traffic.toList) got []) ∧
            t'.traffic.toList = t.traffic.toList)
          (fun x _ => meets_persist (T := (· = t.traffic.toList)) x) _)
          (fun _ ht' => ht') (fun _ t' ht' => ?_) fun _ ht' => ht'
        rw [Turn.Ends, ht'.2]
        exact ht'.1
    exact hforget t ⟨ht, rfl⟩

/-- A message that cannot be written is abandoned. -/
theorem triple_publish (h : Steady P) {y : Client.Reaction (Option UInt16)} {r : Client.Request}
    (hy : ∀ c : Client, c.WF → y.Settles c fun _ acts c' => ∃ a, Steps c (.request r) a acts c') :
    Triple (Turn.Meets (P R got [])) (publish y) (fun _ => Turn.Meets (P R got []))
      (Turn.Ends P R got) := by
  refine Triple.bind (Q := fun r t => t.Meets (P R got r.2) ∧ .close ∉ r.2)
    (triple_ask fun t ht => ?_) fun r => ?_
  · rcases hy _ (h.wf ht) with hrefuse | ⟨b, acts, c', hrun, a, hs⟩
    · obtain ⟨e, hrun⟩ := hrefuse.run
      rw [hrun]
      exact h.ends ht
    · rw [hrun.run_ok]
      exact ⟨h.minor ht (by trivial) hs, (hs.plain trivial).1.2⟩
  · rintro t ⟨ht, hmem⟩
    refine Triple.bind (Triple.catching (h.triple_carryOutAll (Q := fun _ => True)
      fun hclose => absurd hclose hmem) fun e => ?_) (fun _ => triple_pure fun _ ht => ht.1) t
      ⟨ht, trivial⟩
    exact (h.triple_abandon r.1).bind fun _ => triple_throw fun _ => id

theorem triple_request (h : Steady P) (r : Client.Request) :
    Triple (Turn.Meets (P R got [])) (request r) (fun _ => Turn.Meets (P R got []))
      (Turn.Ends P R got) := by
  by_cases hr : r.IsPublish
  · obtain ⟨y, f, hrequest, hy⟩ := request_publish hr
    rw [hrequest]
    refine Triple.map (h.triple_publish (r := r) fun c hc => ?_) fun _ _ => id
    exact (hy c hc).imp fun _ _ _ => And.left
  · rw [request_react hr]
    refine ((h.triple_minor (Q := Client.Any) (show Client.Op.Minor (.request r) from trivial)
      (fun _ _ _ => id) fun c hc => ?_).pre fun _ ht => ⟨ht, trivial⟩).post fun _ _ => And.left
    exact (Client.Reaction.settles_request hc.session r).imp fun a _ _ hs => ⟨a, hs⟩

theorem triple_disconnect (h : Steady P) :
    Triple (Turn.Meets (P R got [])) Task.disconnect (fun _ => Turn.Meets (P R got []))
      (Turn.Ends P R got) := by
  refine Triple.bind triple_read fun l => ?_
  refine (h.triple_react id (Q := Client.Any) fun c es hP => ?_).post fun _ _ => And.left
  exact (Client.Reaction.settles_disconnect l.now).imp fun _ acts c' hs =>
    ⟨h.disconnect hP hs, trivial, fun _ => Client.lasting_any⟩

/-! ## Waiting -/

/-- While a packet is waited for, nothing happens but the end of the connection. -/
theorem triple_onDeadline (h : Steady P) (hQ : ∀ c c', c'.phase = c.phase → Q c → Q c') :
    Triple (Turn.Meets fun c es => P R got [] c es ∧ Q c) onDeadline
      (fun _ => Turn.Meets fun c es => P R got [] c es ∧ Q c) (Turn.Ends P R got) := by
  refine Triple.bind triple_read fun l => ?_
  cases l.keepAlive with
  | none => exact triple_pure fun _ => id
  | some k =>
    dsimp only
    cases k.poll l.now with
    | idle => exact triple_pure fun _ => id
    | sendPing =>
      refine Triple.bind (h.triple_minor (show Client.Op.ping.Minor from trivial) hQ
        fun c _ => ?_) fun _ => meets_update (fun _ => rfl) fun _ => rfl
      obtain ⟨acts, c', hrun, hs⟩ := Client.Reaction.runs_ping (c := c)
      exact hrun.settles ⟨none, .ping hs⟩
    | timedOut => exact (h.triple_loseWith _).pre fun _ => And.left

theorem triple_packetUpTo (h : Steady P) (hQ : ∀ c c', c'.phase = c.phase → Q c → Q c')
    (fuel : Nat) :
    Triple (Turn.Meets fun c es => P R got [] c es ∧ Q c) (packetUpTo fuel)
      (fun _ => Turn.Meets fun c es => P R got [] c es ∧ Q c) (Turn.Ends P R got) := by
  have hlose : ∀ e, Triple (Turn.Meets fun c es => P R got [] c es ∧ Q c) (loseWith e)
      (fun (_ : Packet) => Turn.Meets fun c es => P R got [] c es ∧ Q c) (Turn.Ends P R got) :=
    fun e => (h.triple_loseWith e).pre fun _ => And.left
  induction fuel with
  | zero => exact hlose _
  | succ fuel ih =>
    refine Triple.bind triple_read fun l => ?_
    cases Stream.next l.client.version l.client.incomingLimit l.received with
    | packet p rest =>
      exact Triple.bind (meets_update (fun _ => rfl) fun _ => rfl) fun _ => triple_pure fun _ => id
    | refused e rest =>
      exact Triple.bind (meets_update (fun _ => rfl) fun _ => rfl) fun _ => hlose e
    | incomplete =>
      dsimp only
      obtain ⟨wake, transport, now⟩ := l.transport.read (l.keepAlive.bind (·.deadline)) l.now
      refine Triple.bind (meets_update (fun _ => rfl) fun _ => rfl) fun _ => ?_
      cases wake with
      | octets b =>
        cases b with
        | nil => exact hlose _
        | cons x b => exact Triple.bind (meets_update (fun _ => rfl) fun _ => rfl) fun _ => ih
      | failed e => exact hlose e
      | deadline => exact (h.triple_onDeadline hQ).bind fun _ => ih

theorem triple_packet (h : Steady P) (hQ : ∀ c c', c'.phase = c.phase → Q c → Q c') :
    Triple (Turn.Meets fun c es => P R got [] c es ∧ Q c) packet
      (fun _ => Turn.Meets fun c es => P R got [] c es ∧ Q c) (Turn.Ends P R got) :=
  Triple.bind triple_read fun _ => h.triple_packetUpTo hQ _

/-- A packet is received while there is a connection, or one is asked for. -/
theorem triple_receive (h : Steady P) (p : Packet) :
    Triple (Turn.Meets fun c es => P R got [] c es ∧ c.phase ≠ .disconnected)
      (react (.receive p)) (fun _ => Turn.Meets (P R got [])) (Turn.Ends P R got) := by
  refine (h.triple_react And.left (Q := Client.Any) fun c es ⟨hP, hp⟩ => ?_).post
    fun _ _ => And.left
  exact (Client.Reaction.settles_receive (h.wf hP) p).imp fun _ acts c' hs =>
    ⟨h.receive hP hp hs, trivial, fun _ => Client.lasting_any⟩

/-- A connection is made. What it may start from is given by `I`. -/
theorem triple_connect (h : Steady P) (o : ConnectOptions) {I : Client → List Client.Event → Prop}
    (hI : ∀ {c es}, I c es → P R got [] c es)
    (hconnect : ∀ {c es now acts c'}, I c es → Client.Connects c o now acts c' →
      P R got acts c' es) :
    Triple (Turn.Meets I) (connect o) (fun _ => Turn.Meets (P R got [])) (Turn.Ends P R got) := by
  have hends : ∀ t : Turn, t.Meets I → t.Ends P R got := fun t ht => h.ends (hI ht)
  refine Triple.bind (Q := fun _ => Turn.Meets I) (fun _ => id) fun c => ?_
  refine triple_ite (fun _ => Triple.bind (Q := fun _ _ => False)
    (triple_throw hends) fun _ _ => False.elim) fun _ => ?_
  refine Triple.bind (meets_update (fun _ => rfl) fun _ => rfl) fun _ => ?_
  refine Triple.bind (Q := fun _ => Turn.Meets I) (triple_note fun _ => id) fun _ => ?_
  refine Triple.bind triple_read fun l => ?_
  refine Triple.bind (triple_lift (Q := fun _ => Turn.Meets I) (fun _ _ => id) hends) fun _ => ?_
  refine Triple.bind triple_read fun l => ?_
  -- CONNECT is sent, so what comes is received
  refine Triple.bind (h.triple_react (Q := fun c => c.phase = .connecting) hI fun c es hc => ?_)
    fun _ => ?_
  · refine (Client.Reaction.settles_connect o l.now).imp fun _ acts c' hs => ?_
    exact ⟨hconnect hc hs, hs.plain.2, fun hmem => absurd hmem hs.plain.1.2⟩
  refine Triple.bind (h.triple_packet fun c c' hp hc => hp.trans hc) fun p => ?_
  refine Triple.bind ((h.triple_receive p).pre fun t ht => ⟨ht.1, by simp [ht.2]⟩) fun _ => ?_
  split
  · refine Triple.bind (Q := fun _ => Turn.Meets (P R got [])) (fun _ => id) fun c => ?_
    exact triple_ite (fun _ => triple_pure fun _ => id) fun _ => triple_throw fun _ => h.ends
  · exact triple_throw fun _ => h.ends

/-! ## Events -/

theorem triple_pollUpTo (h : Steady P) (fuel : Nat) :
    Triple (Turn.Meets (P R got [])) (pollUpTo fuel) (fun v => Turn.Meets (P R (got ++ [v]) []))
      (Turn.Ends P R got) := by
  induction fuel with
  | zero => exact h.triple_loseWith _
  | succ fuel ih =>
    refine Triple.bind triple_link fun l => ?_
    rcases hes : l.events with _ | ⟨v, es⟩
    · dsimp only
      refine Triple.bind (Q := fun c t => t.Meets (P R got []) ∧ t.link.client = c)
        (fun t ht => ⟨ht.1, rfl⟩) fun c => ?_
      refine triple_ite (fun _ => Triple.bind (Q := fun _ _ => False)
        (triple_throw fun _ ht => h.ends ht.1) fun _ _ => False.elim) fun hconn => ?_
      have hconn : c.isConnected := by simpa using hconn
      refine Triple.bind ((h.triple_packet (Q := (·.phase = c.phase)) fun _ _ hp hc =>
        hp.trans hc).pre fun t ht => ⟨ht.1, congrArg _ ht.2⟩) fun p => ?_
      have hreceive : Triple (Turn.Meets fun c' es => P R got [] c' es ∧ c'.phase = c.phase)
          (react (.receive p) >>= fun _ => pollUpTo fuel)
          (fun v => Turn.Meets (P R (got ++ [v]) [])) (Turn.Ends P R got) := by
        refine Triple.bind ((h.triple_receive p).pre fun t ht => ⟨ht.1, fun hp => ?_⟩)
          fun _ => ih
        rw [Client.isConnected, ← ht.2, hp] at hconn
        cases hconn
      exact triple_ite (fun _ => Triple.bind (meets_update (fun _ => rfl) fun _ => rfl)
        fun _ => hreceive) fun _ => hreceive
    · refine Triple.bind (Q := fun _ => Turn.Meets (P R (got ++ [v]) [])) ?_
        fun _ => triple_pure fun _ => id
      rintro t ⟨ht, rfl⟩
      rw [Turn.Meets, hes] at ht
      exact h.take ht

theorem triple_poll (h : Steady P) :
    Triple (Turn.Meets (P R got [])) poll (fun v => Turn.Meets (P R (got ++ [v]) []))
      (Turn.Ends P R got) := by
  refine Triple.bind (Q := fun _ => Turn.Meets (P R got [])) ?_ fun n => h.triple_pollUpTo _
  exact Triple.bind triple_read fun l => triple_pure fun _ => id

/-- The account of an application that has got `got`, whether or not it is told of an error next. -/
theorem late (h : Steady P) (got : List Client.Event) :
    Steady fun R got' acts c es => P R (got ++ got') acts c es ∧
      ∀ e, P R (got ++ .error e :: got') acts c es where
  wf hP := h.wf hP.1
  mono hR hP := ⟨h.mono hR hP.1, fun e => h.mono hR (hP.2 e)⟩
  pass ha hP := ⟨h.pass ha hP.1, fun e => h.pass ha (hP.2 e)⟩
  emit hP := ⟨h.emit hP.1, fun e => h.emit (hP.2 e)⟩
  close hP hl := ⟨h.close hP.1 hl, fun e => h.close (hP.2 e) hl⟩
  refused hP hl := ⟨h.refused hP.1 hl, fun e => h.refused (hP.2 e) hl⟩
  lost hP hl := ⟨h.lost hP.1 hl, fun e => h.lost (hP.2 e) hl⟩
  minor hP hop hs := ⟨h.minor hP.1 hop hs, fun e => h.minor (hP.2 e) hop hs⟩
  receive hP hp hs := ⟨h.receive hP.1 hp hs, fun e => h.receive (hP.2 e) hp hs⟩
  disconnect hP hs := ⟨h.disconnect hP.1 hs, fun e => h.disconnect (hP.2 e) hs⟩
  take hP := ⟨by simpa using h.take hP.1, fun e => by simpa using h.take (hP.2 e)⟩
  tell e hP hconn := ⟨by simpa using h.tell e hP.1 hconn,
    fun e' => by simpa using h.tell e (hP.2 e') hconn⟩

/-- While there is a connection, or events wait, the application may as well be told of the error
that ends the waiting. -/
theorem triple_poll_late (h : Steady P) :
    Triple (Turn.Meets fun c es => P R got [] c es ∧ (es = [] → c.isConnected)) poll
      (fun v => Turn.Meets (P R (got ++ [v]) []))
      (fun t => t.Ends P R got ∧ ∀ e, t.Ends P R (got ++ [.error e])) := by
  rintro t ⟨hP, hconn⟩
  rcases hes : t.link.events with _ | ⟨v, es⟩
  · have hlate : t.Meets fun c es => P R (got ++ []) [] c es ∧
        ∀ e, P R (got ++ [.error e]) [] c es := by
      refine ⟨by simpa using hP, fun e => ?_⟩
      rw [hes] at hP ⊢
      exact h.tell e hP (hconn hes)
    refine (@triple_poll _ R [] (h.late got)).imp (fun _ => id) (fun v t ht => ht.1)
      (fun t ht => ?_) t hlate
    exact ⟨by simpa [Turn.Ends, Turn.Meets] using ht.1, ht.2⟩
  · rw [exec_poll_cons hes]
    rw [hes] at hP
    exact h.take hP

/-- The application takes every event that waits. -/
theorem take_all (h : Steady P) {c : Client} {es : List Client.Event} (hP : P R got [] c es) :
    P R (got ++ es) [] c [] := by
  induction es generalizing got with
  | nil => simpa using hP
  | cons v es ih => simpa using ih (h.take hP)

theorem triple_pollAllUpTo (h : Steady P) (fuel : Nat) :
    Triple (Turn.Meets (P R got [])) (liftM (pollAllUpTo fuel))
      (fun r => Turn.Ends P R (got ++ r.1.map (·.2))) (fun _ => False) := by
  induction fuel generalizing got with
  | zero =>
    refine triple_pure (a := (([] : List (Nat × Client.Event)), Error.notConnected)) fun t ht => ?_
    simpa using h.ends ht
  | succ fuel ih =>
    refine h.triple_poll.attempt (fun v => ?_) fun e => ?_
    · refine triple_lift_get_bind fun t => ?_
      refine Triple.lift_bind ((@ih (got ++ [v])).pre fun _ => And.left) fun r => ?_
      refine triple_pure (a := ((t.link.now, v) :: r.1, r.2)) fun t ht => ?_
      simpa using ht
    · refine triple_pure (a := (([] : List (Nat × Client.Event)), e)) fun t ht => ?_
      simpa using ht

/-- A handler gets the events, and the error that ends the waiting in its place. -/
theorem triple_runUpTo (h : Steady P) (goOn : List Client.Event → Client.Event → Bool)
    (fuel : Nat) (seen : List Client.Event) :
    Triple (Turn.Meets (P R (got ++ seen) [])) (liftM (runUpTo goOn fuel seen))
      (fun r => Turn.Ends P R (got ++ r.1)) (fun _ => False) := by
  induction fuel generalizing seen with
  | zero => exact triple_pure (a := (seen, Except.ok ())) fun _ => h.ends
  | succ fuel ih =>
    have hwaiting : Triple
        (Turn.Meets fun c es => P R (got ++ seen) [] c es ∧ (es = [] → c.isConnected))
        (liftM (runUpTo goOn (fuel + 1) seen)) (fun r => Turn.Ends P R (got ++ r.1))
        (fun _ => False) := by
      refine Triple.attempt h.triple_poll_late (fun v => ?_) fun e => ?_
      · refine triple_lift_get_bind fun t => ?_
        rw [List.append_assoc]
        refine triple_lift_ite (fun _ => ?_) fun _ => triple_lift_ite (fun _ => ?_) fun _ => ?_
        · refine triple_lift_ite (fun _ => ?_) fun _ => ?_
          · refine Triple.attempt (h.triple_disconnect.imp (fun _ => And.left) (fun _ _ => h.ends)
              fun _ => id) (fun _ => ?_) fun e => ?_
            · exact triple_pure (a := (seen ++ [v], Except.ok ())) fun _ => id
            · exact triple_pure (a := (seen ++ [v], Except.error e)) fun _ => id
          · exact triple_pure (a := (seen ++ [v], Except.ok ())) fun _ ht => h.ends ht.1
        · exact triple_pure (a := (seen ++ [v], Except.ok ())) fun _ ht => h.ends ht.1
        · exact (ih (seen ++ [v])).pre fun _ => And.left
      · split
        · exact triple_pure (a := (seen, Except.ok ())) fun _ => And.left
        · rename_i e _ heq
          cases heq
          refine triple_lift_get_bind fun t => ?_
          rintro t ⟨⟨-, ht⟩, rfl⟩
          have hall := h.take_all (ht e)
          rw [List.append_assoc, List.append_assoc, List.cons_append, List.nil_append] at hall
          exact hall
        · rename_i heq
          cases heq
    intro t ht
    by_cases hwait : t.link.events = [] → t.link.client.isConnected
    · exact hwaiting t ⟨ht, hwait⟩
    · obtain ⟨hes, hconn⟩ := Classical.not_imp.1 hwait
      rw [exec_lift, run_runUpTo_nil goOn fuel seen hes (by simpa using hconn)]
      exact h.ends ht

theorem triple_pollAll (h : Steady P) :
    Triple (Turn.Meets (P R got [])) (liftM pollAll)
      (fun r => Turn.Ends P R (got ++ r.1.map (·.2))) (fun _ => False) :=
  triple_lift_get_bind fun _ => (h.triple_pollAllUpTo _).pre fun _ => And.left

theorem triple_run (h : Steady P) (goOn : List Client.Event → Client.Event → Bool) :
    Triple (Turn.Meets (P R got [])) (liftM (run goOn)) (fun r => Turn.Ends P R (got ++ r.1))
      (fun _ => False) := by
  refine triple_lift_get_bind fun t => (h.triple_runUpTo goOn _ []).pre fun t ht => ?_
  rw [List.append_nil]
  exact ht.1

/-! ## Operations -/

/-- An operation leaves the account true if it is before. If it makes a connection, that has to be
shown of CONNECT. What the operation may start from is given by `I`. -/
theorem triple_perform (h : Steady P) (op : Op) {I : Client → List Client.Event → Prop}
    (hI : ∀ {c es}, I c es → P R got [] c es)
    (hconnect : ∀ {o}, op = .connect o → ∀ {c es now acts c'}, I c es →
      Client.Connects c o now acts c' → P R got acts c' es) :
    Triple (Turn.Meets I) op.perform (fun r => Turn.Ends P R (got ++ r.given))
      (Turn.Ends P R got) := by
  have hmeets : ∀ t : Turn, t.Meets I → t.Meets (P R got []) := fun _ => hI
  have hquiet : ∀ t : Turn, t.Meets (P R got []) → t.Ends P R (got ++ []) := fun t ht => by
    rw [List.append_nil]
    exact h.ends ht
  have haround : ∀ f : Link → Link, (∀ l, (f l).client = l.client) →
      (∀ l, (f l).events = l.events) →
      Triple (Turn.Meets I) (update f >>= fun _ => (pure .nothing : Task Reply))
        (fun r => Turn.Ends P R (got ++ r.given)) (Turn.Ends P R got) := fun f hc he =>
    Triple.bind (meets_update hc he) fun _ => triple_pure fun t ht => hquiet t (hI ht)
  cases op with
  | arrive items => exact haround _ (fun _ => rfl) fun _ => rfl
  | replaceTransport transport => exact haround _ (fun _ => rfl) fun _ => rfl
  | advance millis => exact haround _ (fun _ => rfl) fun _ => rfl
  | connect o =>
    exact Triple.bind (h.triple_connect o hI (hconnect rfl)) fun _ => triple_pure hquiet
  | request r =>
    exact Triple.map ((h.triple_request r).pre hmeets) fun _ => hquiet
  | restore id data =>
    refine Triple.bind (Q := fun _ => Turn.Meets (P R got [])) (triple_ask fun t ht => ?_)
      fun _ => triple_pure hquiet
    rcases Client.Reaction.settles_restore (c := t.link.client) id data with hrefuse |
      ⟨u, acts, c', hrun, hs⟩
    · obtain ⟨e, hrun⟩ := hrefuse.run
      rw [hrun]
      exact h.ends (hI ht)
    · rw [hrun.run_ok]
      have hs : Steps t.link.client (.restore id data) none acts c' := .restore hs
      exact h.pass_all (hs.plain trivial).1 (h.minor (hI ht) (by trivial) hs)
  | poll =>
    exact Triple.map (h.triple_poll.pre hmeets) fun _ _ => h.ends
  | pollAll =>
    refine Triple.bind (h.triple_pollAll.imp hmeets (fun _ _ => id) fun _ => False.elim) fun r => ?_
    exact triple_pure (a := Reply.events r.1 r.2) fun _ => id
  | run stopAfter =>
    refine Triple.bind ((h.triple_run _).imp hmeets (fun _ _ => id) fun _ => False.elim) fun r => ?_
    exact triple_pure (a := Reply.handled r.1 r.2) fun _ => id
  | disconnect =>
    exact Triple.bind (h.triple_disconnect.pre hmeets) fun _ => triple_pure hquiet
  | forceDisconnect =>
    exact Triple.bind (meets_lose fun hc hl => h.lost (hI hc) hl) fun _ => triple_pure hquiet

/-- After an operation the account is that of the events that have been given as well. -/
theorem step (h : Steady P) {l : Link} (op : Op) {I : Client → List Client.Event → Prop}
    (hI : ∀ {c es}, I c es → P R got [] c es)
    (hconnect : ∀ {o}, op = .connect o → ∀ {c es now acts c'}, I c es →
      Client.Connects c o now acts c' → P R got acts c' es) (hl : I l.client l.events) :
    P (R ∨ DisconnectRefused (l.step op).traffic) (got ++ (l.step op).given) []
      (l.step op).link.client (l.step op).link.events := by
  have hend := h.triple_perform op hI hconnect { link := l } hl
  rcases hexec : exec op.perform { link := l } with ⟨r, t⟩
  rw [hexec] at hend
  rw [step_of_exec op hexec]
  cases r with
  | ok r => exact hend
  | error e =>
    rw [Outcome.given, List.append_nil]
    exact hend

end Account.Steady

/-! ## Runs -/

/-- No connection is opened in the course of operations: `connect` is not called, or not without
being refused, since there is a connection. -/
def OpensNone (l : Link) : List Op → Prop
  | [] => True
  | op :: ops =>
    (∀ o, op = .connect o → l.client.phase ≠ .disconnected) ∧ (l.step op).link.OpensNone ops

section Runs

variable {P : Prop → Account} {R : Prop} {got : List Client.Event} {l : Link} {ops : List Op}

theorem disconnectRefused_append {traffic traffic' : List Traffic} :
    DisconnectRefused (traffic ++ traffic') ↔
      DisconnectRefused traffic ∨ DisconnectRefused traffic' := by
  simp [DisconnectRefused, and_or_left, exists_or]

/-- Unless the client is disconnected, `connect` is refused and does nothing. -/
theorem step_connect_refused (hp : l.client.phase ≠ .disconnected) (o : ConnectOptions) :
    l.step (.connect o) = ⟨.error .alreadyConnected, [], [], l⟩ := by
  have hconnect : exec (connect o) { link := l } = (.error .alreadyConnected, { link := l }) := by
    rw [connect, exec_client, if_pos (by simp [Client.isDisconnected, hp])]
    rfl
  exact step_of_exec (.connect o) (exec_bind_error hconnect)

/-- A call of `connect` gives no event. -/
theorem given_connect (o : ConnectOptions) : (l.step (.connect o)).given = [] := by
  rcases hexec : exec (connect o) { link := l } with ⟨e | ⟨sp, r⟩, t⟩
  · rw [step_of_exec (.connect o) (exec_bind_error hexec)]
    rfl
  · rw [step_of_exec (.connect o) (exec_bind_ok hexec)]
    rfl

/-- What is known of a call of `connect` once it is through, if it is known of a client that is not
connected, and of one that has just asked for a connection. -/
theorem Account.Kept.step_connect (h : Kept P) {o : ConnectOptions} (hl : l.client.WF)
    (hp : l.client.phase = .disconnected)
    (hleft : ∀ {c}, c.phase = .disconnected → P False [] [] c l.events)
    (hasked : ∀ {acts c}, Plain acts → c.phase = .connecting → P False [] acts c l.events) :
    P (DisconnectRefused (l.step (.connect o)).traffic) [] [] (l.step (.connect o)).link.client
      (l.step (.connect o)).link.events := by
  have hstep := @Account.Steady.step _ False [] h.steady l (.connect o)
    (fun c es => c.WF ∧ c.phase = .disconnected ∧ es = l.events) ?_ ?_ ⟨hl, hp, rfl⟩
  · rw [given_connect, List.append_nil] at hstep
    exact h.mono (Or.resolve_left · id) hstep.2
  · rintro c es ⟨hc, hp, rfl⟩
    exact ⟨hc, hleft hp⟩
  · rintro o - c es now acts c' ⟨hc, -, rfl⟩ hs
    exact ⟨Steps.wf hc (.connect hs), hasked hs.plain.1 hs.plain.2⟩

/-- A steady account stays true until a connection is opened. -/
theorem Account.Steady.after (h : Steady P) (hops : l.OpensNone ops)
    (hl : P R got [] l.client l.events) :
    P (R ∨ DisconnectRefused (l.trafficOf ops)) (got ++ l.given ops) [] (l.after ops).client
      (l.after ops).events := by
  induction ops generalizing l R got with
  | nil =>
    rw [given, List.append_nil]
    exact h.mono .inl hl
  | cons op ops ih =>
    have hstep := h.step (I := fun c es => P R got [] c es ∧
        ∀ o, op = .connect o → c.phase ≠ .disconnected) op And.left
      (fun hop _ _ _ _ _ hc hs => absurd (by cases hs <;> assumption) (hc.2 _ hop)) ⟨hl, hops.1⟩
    rw [trafficOf, disconnectRefused_append, ← or_assoc, given, ← List.append_assoc]
    exact ih hops.2 hstep

theorem kept_true : Account.Kept fun _ _ _ _ _ => True := by
  constructor <;> intros <;> trivial

/-- A client at work stays well-formed. -/
theorem wf_step (h : l.client.WF) (op : Op) : (l.step op).link.client.WF :=
  (@Account.Steady.step _ False [] kept_true.steady l op (fun c _ => c.WF) (⟨·, trivial⟩)
    (fun _ _ _ _ _ _ hc hs => ⟨Steps.wf hc (.connect hs), trivial⟩) h).1

theorem wf_after (h : l.client.WF) (ops : List Op) : (l.after ops).client.WF := by
  induction ops generalizing l with
  | nil => exact h
  | cons op ops ih => exact ih (wf_step h op)

end Runs

end Link

end Mqtt
