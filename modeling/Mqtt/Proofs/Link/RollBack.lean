import Mqtt.Proofs.Client.Origins
import Mqtt.Proofs.Client.Restart
import Mqtt.Proofs.Link.Account
import Mqtt.Proofs.Link.Alike
import Mqtt.Proofs.Link.InStep

/-!
# Messages that cannot be written

A message is recorded before it is written. If the transport then refuses the frame, the connection
is lost and the message is abandoned, so that its exchange, its identifier and its record are gone
again: what is left is a link that is alike to one that merely lost its connection
(`step_publish_refused`), and from then on nothing tells the two apart.
`failed_publish_rolls_back` says what that comes to.
-/

namespace Mqtt

theorem Transport.written_of_write {t t' : Transport} {frame : Bytes} {u : Unit} {x : Traffic}
    (h : t.write frame = (.ok u, x, t')) : x = .write frame := by
  unfold write at h
  split at h <;> cases h <;> rfl

/-! ## The client -/

/-- A session without requests is known by its exchanges. -/
theorem Session.alike_of_idle {s t : Session} (hs : s.WF) (ht : t.WF) (his : s.Idle) (hit : t.Idle)
    (hl : s.ledger.toList = t.ledger.toList) (hx : s.expiry = t.expiry)
    (ha : s.endedAt = t.endedAt) : s.Alike t := by
  have hids : s.ids = t.ids := hs.ids.ext ht.ids fun id => by
    rw [Bool.eq_iff_iff, hs.isHeld_iff_of_idle his, ht.isHeld_iff_of_idle hit, Ledger.keys, hl,
      Ledger.keys]
  refine ⟨t.ledger, ⟨hs.ledger, ht.ledger, hl⟩, ?_⟩
  obtain ⟨l, ids, sub, unsub, x, a⟩ := s
  obtain ⟨l', ids', sub', unsub', x', a'⟩ := t
  obtain ⟨hsub, hunsub⟩ := his
  obtain ⟨hsub', hunsub'⟩ := hit
  simp only at *
  rw [hids, hsub, hsub', hunsub, hunsub', hx, ha]

/-- An exchange that was started and ended again has left the others as they were. -/
theorem Ledger.Started.toList_erase {l m : Ledger} {e : Exchange} (h : Started l e m) :
    (m.erase e.key).toList = l.toList := by
  have hothers : ∀ x ∈ l.toList, x.key ≠ e.key := fun x hx hk =>
    h.fresh (Ledger.mem_keys.2 ⟨x, hx, hk⟩)
  rw [Ledger.toList_erase h.wf, h.toList, List.filter_append,
    List.filter_eq_self.2 fun x hx => decide_eq_true (hothers x hx)]
  simp

namespace Client

/-- The client once its connection is lost. -/
def cutOff (c : Client) (now : Nat) : Client :=
  { c with
    phase := .disconnected
    session := { c.session.dropRequests with endedAt := some now } }

/-- The client without a message that it published. -/
def forget (c : Client) : Option UInt16 → Client
  | none => c
  | some id => { c with session := (c.session.complete (.outbound id)).2 }

variable {c c' : Client} {p : Publish} {a : Option UInt16} {acts : List Action} {now : Nat}

theorem run_connectionLost (hconn : c.isConnected) (now : Nat) :
    (Reaction.connectionLost now).run c = ⟨.ok (), [.emit .close], c.cutOff now⟩ := by
  obtain ⟨acts, c', hrun, h⟩ := Reaction.runs_connectionLost (c := c) now
  cases h with
  | before hp => simp [isConnected, hp] at hconn
  | now => exact hrun.run_ok

theorem wf_cutOff (hc : c.WF) (now : Nat) : (c.cutOff now).WF where
  session := hc.session.dropRequests.of_eq rfl rfl rfl rfl
  idle _ := ⟨(Session.idle_dropRequests c.session).1, (Session.idle_dropRequests c.session).2⟩

@[simp] theorem ledger_cutOff (c : Client) (now : Nat) :
    (c.cutOff now).session.ledger = c.session.ledger :=
  Session.ledger_dropRequests c.session

namespace Publishes

/-- Publishing is a change of the records, if any, and a frame. -/
theorem exists_frame (h : Publishes c p a acts c') :
    ∃ (cs : List Change) (frame : Bytes), acts = cs.map .persist ++ [.send frame] := by
  cases h with
  | once => exact ⟨[], _, rfl⟩
  | tracked => exact ⟨[_], _, rfl⟩

theorem isConnected (h : Publishes c p a acts c') (hconn : c.isConnected) : c'.isConnected := by
  cases h <;> exact hconn

/-- Above QoS 0 an exchange is started that retains the message. -/
theorem started {id : UInt16} (h : Publishes c p (some id) acts c') :
    ∃ e ids l, Ledger.Started c.session.ledger e l ∧ e.key = .outbound id ∧ e.retains = .publish ∧
      c' = { c with session := { c.session with ids, ledger := l } } := by
  cases h with
  | tracked hq hid hf he hcheck hl =>
    refine ⟨_, _, _, hl, by rw [he]; rfl, ?_, rfl⟩
    rw [he]
    exact Exchange.retains_published _ _ _ _

/-- The message is abandoned. -/
theorem run_abandon {id : UInt16} (h : Publishes c p (some id) acts c') (hc' : c'.WF) (now : Nat) :
    ∃ acts', (Reaction.abandon id).run (c'.cutOff now) =
      ⟨.ok (), acts', (c'.cutOff now).forget (some id)⟩ := by
  obtain ⟨acts', d, hrun, habandons⟩ := Reaction.runs_abandon (wf_cutOff hc' now).session id
  cases habandons with
  | message => exact ⟨_, hrun.run_ok⟩
  | nothing hnone =>
    obtain ⟨e, ids, l, hl, hk, hr, rfl⟩ := h.started
    refine absurd hr (hnone e ?_ hk)
    rw [ledger_cutOff, hl.toList]
    exact List.mem_append_right _ (List.mem_singleton.2 rfl)

/-- What is left once the connection is lost and the message is abandoned. -/
theorem alike_forget (h : Publishes c p a acts c') (hc : c.WF) (hc' : c'.WF) (now : Nat) :
    (c.cutOff now).Alike ((c'.cutOff now).forget a) := by
  have hwf := wf_cutOff hc now
  have hwf' := wf_cutOff hc' now
  have hrefl : (c.cutOff now).Alike (c.cutOff now) :=
    ⟨_, ⟨hwf.session.ledger, hwf.session.ledger, rfl⟩, rfl⟩
  cases a with
  | none =>
    cases h with
    | once => exact hrefl
  | some id =>
    obtain ⟨e, ids, l, hl, hk, -, heq⟩ := h.started
    have hmem : Key.outbound id ∈ c'.session.ledger.keys := by
      rw [heq, hl.keys, hk]
      exact List.mem_append_right _ (List.mem_singleton.2 rfl)
    have hforget : (c'.cutOff now).forget (some id) = { c.cutOff now with
        session := ((c'.cutOff now).session.complete (.outbound id)).2 } := by
      rw [heq]
      rfl
    rw [hforget]
    refine hrefl.withSession (Session.alike_of_idle hwf.session (hwf'.session.complete _)
      (hwf.idle rfl) ((hwf'.idle rfl).complete _) ?_ ?_ ?_)
    · have hleft : (c.cutOff now).session.ledger.toList = c.session.ledger.toList := by
        rw [ledger_cutOff]
      have hright : ((c'.cutOff now).session.complete (.outbound id)).2.ledger.toList =
          c.session.ledger.toList := by
        rw [hwf'.session.complete_eq, ledger_cutOff, if_pos hmem, heq, ← hk]
        exact hl.toList_erase
      exact hleft.trans hright.symm
    · simp [cutOff, heq]
    · simp [cutOff]

end Publishes

end Client

namespace Link

/-- The link once its connection is lost. -/
def cutOff (l : Link) : Link :=
  { l with
    client := l.client.cutOff l.now
    keepAlive := none
    events := l.events ++ [.close] }

namespace Task

variable {t : Turn} {frame : Bytes}

theorem exec_lose (hconn : t.link.client.isConnected) :
    exec lose t = (.ok (), { t with link := t.link.cutOff, traffic := t.traffic.push .close }) := by
  have hask : exec (ask (.connectionLost t.link.now))
      { t with link := { t.link with keepAlive := none }, traffic := t.traffic.push .close } =
      (.ok ((), [.emit .close]),
        { t with
          link := { t.link with client := t.link.client.cutOff t.link.now, keepAlive := none }
          traffic := t.traffic.push .close }) := by
    rw [exec_ask]
    simp only [Client.run_connectionLost hconn]
    rfl
  rw [lose, exec_update, exec_note, exec_link, exec_link]
  exact exec_bind_ok hask

/-- A frame is written, or refused, and then the connection is lost. -/
theorem exec_write (frame : Bytes) (hconn : t.link.client.isConnected) :
    (∃ u, exec (write frame) t = (.ok (), u) ∧ u.traffic = t.traffic.push (.write frame)) ∨
      ∃ e, (t.link.transport.write frame).1 = .error e ∧ exec (write frame) t = (.error e,
        { t with
          link := t.link.cutOff
          traffic := (t.traffic.push (.refusedWrite frame)).push .close }) := by
  rw [write, exec_link]
  rcases hw : t.link.transport.write frame with ⟨e | u, x, transport⟩
  · obtain ⟨rfl, rfl⟩ := Transport.unchanged_of_write hw
    refine .inr ⟨e, rfl, ?_⟩
    dsimp only
    rw [exec_note, exec_update, loseWith]
    exact exec_bind_ok (exec_lose hconn)
  · obtain rfl := Transport.written_of_write hw
    exact .inl ⟨_, rfl, rfl⟩

theorem exec_persist (x : Change) (t : Turn) :
    ∃ changes, exec (persist x) t = (.ok (), { t with changes }) := by
  refine ⟨if t.link.persists then t.changes.push x else t.changes, ?_⟩
  rw [persist, exec_link]
  split <;> rfl

theorem exec_persistAll (cs : List Change) (t : Turn) :
    ∃ changes, exec (cs.forM persist) t = (.ok (), { t with changes }) := by
  induction cs generalizing t with
  | nil => exact ⟨_, rfl⟩
  | cons x cs ih =>
    obtain ⟨changes, hx⟩ := exec_persist x t
    obtain ⟨changes', hcs⟩ := ih { t with changes }
    exact ⟨changes', (exec_bind_ok hx).trans hcs⟩

/-- The changes come before the frame. -/
theorem exec_carryOutAll (cs : List Change) (frame : Bytes) (t : Turn) :
    ∃ changes, exec (carryOutAll (cs.map .persist ++ [.send frame])) t =
      exec (write frame) { t with changes } := by
  induction cs generalizing t with
  | nil => exact ⟨t.changes, congrArg (exec · t) (bind_pure_unit (x := write frame))⟩
  | cons x cs ih =>
    obtain ⟨changes, hx⟩ := exec_persist x t
    obtain ⟨changes', hcs⟩ := ih { t with changes }
    exact ⟨changes', (exec_bind_ok hx).trans hcs⟩

/-- What is asked of the client after a message could not be written. -/
theorem exec_abandon {a : Option UInt16} {d : Client} (hd : ∀ id, a = some id →
      ∃ acts, (Client.Reaction.abandon id).run t.link.client = ⟨.ok (), acts, d⟩)
    (hnone : a = none → d = t.link.client) :
    ∃ changes, exec (abandon a) t =
      (.ok (), { t with link := { t.link with client := d }, changes }) := by
  cases a with
  | none =>
    rw [hnone rfl]
    exact ⟨_, rfl⟩
  | some id =>
    obtain ⟨acts, hrun⟩ := hd id rfl
    have hask : exec (ask (.abandon id)) t =
        (.ok ((), acts), { t with link := { t.link with client := d } }) := by
      rw [exec_ask, hrun]
      rfl
    obtain ⟨changes, hpersist⟩ := exec_persistAll (acts.filterMap (·.change?))
      { t with link := { t.link with client := d } }
    exact ⟨changes, (exec_bind_ok hask).trans hpersist⟩

section Publish

variable {l : Link} {y : Client.Reaction (Option UInt16)}

/-- A message is written, or its frame is refused and what is left is a link that is alike to one
that lost its connection. -/
theorem exec_publish_of_runs {a : Option UInt16} {acts : List Client.Action} {c' : Client}
    {p : Publish} (hl : l.client.WF) (hconn : l.client.isConnected)
    (hrun : y.Runs l.client (.ok a) acts c') (h : Client.Publishes l.client p a acts c') :
    ∃ sent, (∃ u, exec (publish y) { link := l } = (.ok a, u) ∧ u.traffic = #[.write sent]) ∨
      ∃ e m changes, (l.transport.write sent).1 = .error e ∧ l.cutOff.Alike m ∧
        exec (publish y) { link := l } =
          (.error e, ⟨m, #[.refusedWrite sent, .close], changes⟩) := by
  have hc' : c'.WF := Client.Steps.wf hl (.publish hconn h)
  obtain ⟨cs, sent, rfl⟩ := h.exists_frame
  refine ⟨sent, ?_⟩
  have hask : exec (ask y) { link := l } =
      (.ok (a, cs.map .persist ++ [.send sent]), { link := { l with client := c' } }) := by
    rw [exec_ask, hrun.run_ok]
    rfl
  obtain ⟨changes, hcarry⟩ := exec_carryOutAll cs sent { link := { l with client := c' } }
  rcases exec_write (t := { link := { l with client := c' }, changes }) sent (h.isConnected hconn)
    with ⟨u, hu, htraffic⟩ | ⟨e, he, hu⟩
  · refine .inl ⟨u, ?_, htraffic⟩
    exact (exec_bind_ok hask).trans (exec_bind_ok (exec_tryCatch_ok (hcarry.trans hu)))
  · obtain ⟨changes', habandon⟩ := exec_abandon (a := a) (d := (c'.cutOff l.now).forget a)
      (t := ⟨{ l with client := c' }.cutOff, #[.refusedWrite sent, .close], changes⟩)
      (fun id ha => ha ▸ (ha ▸ h).run_abandon hc' l.now) fun ha => ha ▸ rfl
    obtain ⟨k, hk, heq⟩ := h.alike_forget hl hc' l.now
    refine .inr ⟨e, { l.cutOff with client := (c'.cutOff l.now).forget a }, changes', he,
      ⟨k, hk, ?_⟩, (exec_bind_ok hask).trans (exec_bind_error ?_)⟩
    · exact congrArg (fun d => { l.cutOff with client := d }) heq
    · exact (exec_tryCatch_error (hcarry.trans hu)).trans (exec_bind_ok habandon)

/-- If the frame of a message is refused, the error is that of the transport, and the link that is
left is alike to one that lost its connection. -/
theorem exec_publish (hl : l.client.WF) (hconn : l.client.isConnected)
    (hy : y.Settles l.client fun a acts c' => ∃ p, Client.Publishes l.client p a acts c')
    (hrefused : .refusedWrite frame ∈ (exec (publish y) { link := l }).2.traffic.toList) :
    ∃ e m traffic changes, (l.transport.write frame).1 = .error e ∧ l.cutOff.Alike m ∧
      exec (publish y) { link := l } = (.error e, ⟨m, traffic, changes⟩) := by
  rcases hy with hrefuse | ⟨a, acts, c', hrun, p, h⟩
  · obtain ⟨e, hrun⟩ := hrefuse.run
    have hask : exec (ask y) { link := l } = (.error e, { link := l }) := by
      rw [exec_ask, hrun]
      rfl
    rw [publish, exec_bind_error hask] at hrefused
    cases hrefused
  · obtain ⟨sent, ⟨u, hu, htraffic⟩ | ⟨e, m, changes, he, hm, hu⟩⟩ :=
      exec_publish_of_runs hl hconn hrun h
    · rw [hu, htraffic] at hrefused
      simp at hrefused
    · rw [hu] at hrefused
      obtain rfl : frame = sent := by simpa using hrefused
      exact ⟨e, m, _, changes, he, hm, hu⟩

end Publish

end Task

variable {l : Link} {r : Client.Request} {frame : Bytes}

/-- A link that could not write a message is alike to one that lost its connection instead. -/
theorem step_publish_refused (hl : l.client.WF) (hconn : l.client.isConnected) (hr : r.IsPublish)
    (hrefused : .refusedWrite frame ∈ (l.step (.request r)).traffic) :
    ∃ e, (l.transport.write frame).1 = .error e ∧ (l.step (.request r)).reply = .error e ∧
      l.cutOff.Alike (l.step (.request r)).link := by
  obtain ⟨y, f, hrequest, hy⟩ := Task.request_publish hr
  have hexec : Task.exec (Op.request r).perform { link := l } =
      ((Task.exec (Task.publish y) { link := l }).1.map fun a => .done (f a),
        (Task.exec (Task.publish y) { link := l }).2) := by
    rw [Op.perform, hrequest, Functor.map_map, Task.exec_map]
  rw [Task.step_of_exec _ hexec] at hrefused ⊢
  obtain ⟨e, m, traffic, changes, he, hm, hpublish⟩ :=
    Task.exec_publish hl hconn ((hy l.client hl).imp fun _ _ _ => And.right) hrefused
  rw [hpublish]
  exact ⟨e, he, rfl, hm⟩

theorem step_forceDisconnect (hconn : l.client.isConnected) :
    l.step .forceDisconnect = ⟨.ok .nothing, [.close], [], l.cutOff⟩ := by
  have hlose := Task.exec_lose (t := { link := l }) hconn
  exact Task.step_of_exec .forceDisconnect (Task.exec_bind_ok hlose)

/-- The transport of a connected client refuses the frame of a message. The call fails with the
error of the transport. The exchanges in flight are those from before, and so are the records; the
identifiers held are those of the messages among them, and no request is left; the client is
disconnected. From then on everything goes as if the connection had been lost in place of the call,
so that nothing of the message is sent, and none of the others is missing, when the session is
resumed. -/
theorem failed_publish_rolls_back (options : ClientOptions) (transport : Transport)
    (persists : Bool) {before : List Op}
    (hl : l = after { client := .new options, transport, persists } before)
    (hpersists : l.persists) (hconn : l.client.isConnected) {s : Sink}
    (hs : s = ⟨l.client.session.ledger.toList.map fun e => (e.key, Record.encode e)⟩)
    (hr : r.IsPublish) (hrefused : .refusedWrite frame ∈ (l.step (.request r)).traffic) :
    let o := l.step (.request r)
    (∃ e, (l.transport.write frame).1 = .error e ∧ o.reply = .error e) ∧
      o.link.client.session.ledger.toList = l.client.session.ledger.toList ∧
      s.applyAll o.changes = s ∧
      (∀ id, o.link.client.session.ids.isHeld id ↔
        .outbound id ∈ o.link.client.session.ledger.keys) ∧
      o.link.client.session.requests = 0 ∧ o.link.client.phase = .disconnected ∧
      ∀ later, o.link.outcomes later = (l.step .forceDisconnect).link.outcomes later := by
  intro o
  have hwf : l.client.WF := hl ▸ wf_after (Client.wf_new options) before
  have hkept : l.Kept s := ⟨hpersists, hwf, hs⟩
  have hrecords : s.applyAll o.changes = .ofLedger o.link.client.session.ledger :=
    (hkept.step (fun _ _ heq => Op.noConfusion heq) fun _ _ => not_exposes_request).records
  obtain ⟨e, he, hreply, halike⟩ := step_publish_refused hwf hconn hr hrefused
  have hlist : o.link.client.session.ledger.toList = l.client.session.ledger.toList := by
    rw [← halike.client.session.ledger.toList]
    exact congrArg _ (Client.ledger_cutOff l.client l.now)
  have hphase : o.link.client.phase = .disconnected := by
    obtain ⟨k, -, heq⟩ := halike
    exact congrArg (·.client.phase) heq
  have hafter : o.link.client.WF := wf_step hwf (.request r)
  have hidle := hafter.idle (by rw [Client.isConnected, hphase])
  refine ⟨⟨e, he, hreply⟩, hlist, ?_, fun id => hafter.session.isHeld_iff_of_idle hidle, ?_, hphase,
    fun later => ?_⟩
  · rw [hrecords, Sink.ofLedger, hlist, hs]
  · rw [Session.requests, hidle.subscribes, hidle.unsubscribes]
    rfl
  · rw [step_forceDisconnect hconn]
    exact (halike.outcomes later).symm

/-- A session that outlasts its connection. -/
def lasting : ConnectOptions :=
  { clientId := "c", cleanStart := false, properties := { sessionExpiry := some 100 } }

/-- A message is in flight, and the transport takes no other. -/
def inFlight : Link :=
  after { client := .new {}, transport := twoWrites }
    [.connect lasting, .request (.publish (.ofMessage "t" [0x78] .exactlyOnce false))]

/-- What is asked of it all the same. -/
def another : Client.Request :=
  .publish (.ofMessage "u" [0x79] .atLeastOnce false)

/-- A connection to a server that has kept the session. -/
def resumption : List Op :=
  [.replaceTransport { script := [.data [0x20, 3, 1, 0, 0]] }, .connect lasting]

/-- A second message is refused. When the session is resumed, only the first one is sent again. -/
theorem failed_publish_rolls_back_second :
    (inFlight.step (.request another)).reply = .error (.io "write refused") ∧
      (inFlight.step (.request another)).link.client.session.ledger.toList =
        inFlight.client.session.ledger.toList ∧
      ((inFlight.step (.request another)).link.outcomes resumption).map (·.2.1) = [[],
        [.connect,
          .write [16, 19, 0, 4, 77, 81, 84, 84, 5, 0, 0, 60, 5, 17, 0, 0, 0, 100, 0, 1, 99],
          .write [0x3C, 7, 0, 1, 0x74, 0, 1, 0, 0x78]]] := by
  have htraffic : (inFlight.step (.request another)).traffic =
      [.refusedWrite [0x32, 7, 0, 1, 0x75, 0, 2, 0, 0x79], .close] := by cbv
  have hleft : inFlight.transport.writesLeft = some 0 := by cbv
  have hrefused : .refusedWrite [0x32, 7, 0, 1, 0x75, 0, 2, 0, 0x79] ∈
      (inFlight.step (.request another)).traffic := htraffic ▸ List.mem_cons_self
  obtain ⟨⟨e, he, hreply⟩, hlist, -, -, -, -, hlater⟩ :=
    failed_publish_rolls_back (r := another) {} twoWrites true
      (show inFlight = after _ _ from rfl) (by cbv) (by cbv) rfl trivial hrefused
  have hwrite : e = .io "write refused" := by
    rw [Transport.write, hleft] at he
    exact (Except.error.inj he).symm
  refine ⟨hwrite ▸ hreply, hlist, ?_⟩
  rw [hlater resumption]
  cbv

end Link

end Mqtt
