import Mqtt.Client.Operation
import Mqtt.Proofs.Client.Connections
import Mqtt.Proofs.Client.Received
import Mqtt.Proofs.Client.Requests

/-!
# What an operation does

`Steps` puts together what requests, packets and connections do. An operation on a well-formed
client is refused and leaves it as it was, or it does what `Steps` says: `step_cases`.
-/

namespace Mqtt

namespace Client

/-- An operation that is not refused, with the identifier that it yields. -/
inductive Steps (c : Client) : Op → Option UInt16 → List Action → Client → Prop
  | connect {o : ConnectOptions} {now : Nat} {acts : List Action} {c' : Client}
      (h : Connects c o now acts c') : Steps c (.connect o now) none acts c'
  /-- A packet comes before the connection is accepted. -/
  | early {p : Packet} (hconn : c.isConnected = false) (hp : p.packetType ≠ .connAck) :
      Steps c (.receive p) none (failure (.protocol (.beforeConnAck p.packetType))) c
  | receive {p : Packet} {acts : List Action} {c' : Client}
      (hp : c.isConnected ∨ p.packetType = .connAck) (h : Handles c p acts c') :
      Steps c (.receive p) none acts c'
  | handle {p : Packet} {acts : List Action} {c' : Client} (h : Handles c p acts c') :
      Steps c (.handle p) none acts c'
  | publish {p : Publish} {a : Option UInt16} {acts : List Action} {c' : Client}
      (hconn : c.isConnected) (h : Publishes c p a acts c') :
      Steps c (.request (.publish p)) a acts c'
  | publishWithId {id : UInt16} {p : Publish} {a : Option UInt16} {acts : List Action} {c' : Client}
      (hconn : c.isConnected) (hq : p.qos ≠ .atMostOnce) (hid : id ≠ 0)
      (h : Publishes c { p with id := some id } a acts c') :
      Steps c (.request (.publishWithId id p)) none acts c'
  | subscribe {filters : List TopicFilter} {asked : Option UInt16} {id : UInt16}
      {acts : List Action} {c' : Client} (hconn : c.isConnected)
      (h : Subscribes c filters asked id acts c') :
      Steps c (.request (.subscribe filters asked)) (some id) acts c'
  | subscribeWithId {id id' : UInt16} {filter : TopicFilter} {acts : List Action} {c' : Client}
      (hconn : c.isConnected) (hid : id ≠ 0) (h : Subscribes c [filter] (some id) id' acts c') :
      Steps c (.request (.subscribeWithId id filter)) none acts c'
  | unsubscribe {filter : String} {id : UInt16} {acts : List Action} {c' : Client}
      (hconn : c.isConnected) (h : Unsubscribes c filter none id acts c') :
      Steps c (.request (.unsubscribe filter)) (some id) acts c'
  | unsubscribeWithId {id id' : UInt16} {filter : String} {acts : List Action} {c' : Client}
      (hconn : c.isConnected) (hid : id ≠ 0) (h : Unsubscribes c filter (some id) id' acts c') :
      Steps c (.request (.unsubscribeWithId id filter)) none acts c'
  | acknowledge {kind : AckKind} {id : UInt16} {reason : Reason} {acts : List Action} {c' : Client}
      (hconn : c.isConnected) (h : Acknowledges c id reason kind acts c') :
      Steps c (.request (.acknowledge kind id reason)) none acts c'
  | abandon {id : UInt16} {acts : List Action} {c' : Client} (h : Abandons c id acts c') :
      Steps c (.abandon id) none acts c'
  | ping {acts : List Action} {c' : Client} (h : Pings c acts c') : Steps c .ping none acts c'
  | disconnect {now : Nat} {acts : List Action} {c' : Client} (h : Disconnects c now acts c') :
      Steps c (.disconnect now) none acts c'
  | connectionLost {now : Nat} {acts : List Action} {c' : Client} (h : Loses c now acts c') :
      Steps c (.connectionLost now) none acts c'
  | restore {id : UInt16} {data : Bytes} {acts : List Action} {c' : Client}
      (h : Restores c id data acts c') : Steps c (.restore id data) none acts c'

/-- Above QoS 0 a message goes under the identifier that is asked for. -/
theorem Publishes.id_eq {c c' : Client} {p : Publish} {a : Option UInt16} {acts : List Action}
    {id : UInt16} (h : Publishes c p a acts c') (hq : p.qos ≠ .atMostOnce) (hid : p.id = some id) :
    a = some id := by
  cases h with
  | once hq' => exact absurd hq' hq
  | tracked _ hclaim =>
    rw [hid, IdPool.claim, Except.bind_eq_ok_iff] at hclaim
    obtain ⟨ids, -, hclaim⟩ := hclaim
    cases hclaim
    rfl

namespace Reaction

variable {c : Client}

/-- Every packet is taken. -/
theorem runs_receive (hc : c.WF) (p : Packet) :
    ∃ acts c', (receive p).Runs c (.ok ()) acts c' ∧ Steps c (.receive p) none acts c' := by
  by_cases hp : c.isConnected ∨ p.packetType = .connAck
  · obtain ⟨acts, c', hrun, h⟩ := runs_handle hc p
    refine ⟨acts, c', runs_client.bind ?_, .receive hp h⟩
    rwa [if_neg (by simpa [imp_iff_not_or] using hp)]
  · obtain ⟨hconn, hp⟩ := not_or.1 hp
    refine ⟨_, _, runs_client.bind ?_, Steps.early (by simpa using hconn) hp⟩
    rw [if_pos (by simp [hconn, hp])]
    exact runs_guarded (.error _) [] (runs_throw _)

theorem settles_receive (hc : c.WF) (p : Packet) :
    (receive p).Settles c fun _ acts c' => Steps c (.receive p) none acts c' := by
  obtain ⟨acts, c', hrun, h⟩ := runs_receive hc p
  exact hrun.settles h

theorem settles_publishWithId (hc : c.session.WF) (id : UInt16) (p : Publish) :
    (publishWithId id p).Settles c fun _ => Steps c (.request (.publishWithId id p)) none := by
  unfold publishWithId
  refine settles_unless fun hq => settles_unless fun hid => ?_
  exact (settles_publish hc { p with id := some id }).bind_pure fun _ _ _ h =>
    .publishWithId h.1 hq hid h.2

theorem settles_subscribeWithId (hc : c.session.WF) (id : UInt16) (filter : TopicFilter) :
    (subscribeWithId id filter).Settles c fun _ =>
      Steps c (.request (.subscribeWithId id filter)) none := by
  unfold subscribeWithId
  refine settles_unless fun hid => ?_
  exact (settles_subscribe hc [filter] (some id)).bind_pure fun _ _ _ h =>
    .subscribeWithId h.1 hid h.2

theorem settles_unsubscribeWithId (hc : c.session.WF) (id : UInt16) (filter : String) :
    (unsubscribeWithId id filter).Settles c fun _ =>
      Steps c (.request (.unsubscribeWithId id filter)) none := by
  unfold unsubscribeWithId
  refine settles_unless fun hid => ?_
  exact (settles_unsubscribe hc filter (some id)).bind_pure fun _ _ _ h =>
    .unsubscribeWithId h.1 hid h.2

theorem settles_request (hc : c.session.WF) (r : Request) :
    r.react.Settles c (Steps c (.request r)) := by
  cases r with
  | publish p =>
    exact (settles_publish hc p).imp fun _ _ _ h => .publish h.1 h.2
  | publishWithId id p => exact (settles_publishWithId hc id p).bind_pure fun _ _ _ h => h
  | subscribe filters asked =>
    exact (settles_subscribe hc filters asked).bind_pure fun _ _ _ h => .subscribe h.1 h.2
  | subscribeWithId id filter =>
    exact (settles_subscribeWithId hc id filter).bind_pure fun _ _ _ h => h
  | unsubscribe filter =>
    exact (settles_unsubscribe hc filter none).bind_pure fun _ _ _ h => .unsubscribe h.1 h.2
  | unsubscribeWithId id filter =>
    exact (settles_unsubscribeWithId hc id filter).bind_pure fun _ _ _ h => h
  | acknowledge kind id reason =>
    exact (settles_acknowledge hc kind id reason).bind_pure fun _ _ _ h => .acknowledge h.1 h.2

theorem settles_react (hc : c.WF) (op : Op) : op.react.Settles c (Steps c op) := by
  cases op with
  | connect o now => exact (settles_connect o now).bind_pure fun _ _ _ h => .connect h
  | receive p => exact (settles_receive hc p).bind_pure fun _ _ _ h => h
  | handle p =>
    obtain ⟨acts, c', hrun, h⟩ := runs_handle hc p
    exact (hrun.settles h).bind_pure fun _ _ _ h => .handle h
  | request r => exact settles_request hc.session r
  | abandon id =>
    obtain ⟨acts, c', hrun, h⟩ := runs_abandon hc.session id
    exact (hrun.settles h).bind_pure fun _ _ _ h => .abandon h
  | ping =>
    obtain ⟨acts, c', hrun, h⟩ := runs_ping (c := c)
    exact (hrun.settles h).bind_pure fun _ _ _ h => .ping h
  | disconnect now => exact (settles_disconnect now).bind_pure fun _ _ _ h => .disconnect h
  | connectionLost now =>
    obtain ⟨acts, c', hrun, h⟩ := runs_connectionLost (c := c) now
    exact (hrun.settles h).bind_pure fun _ _ _ h => .connectionLost h
  | restore id data => exact (settles_restore id data).bind_pure fun _ _ _ h => .restore h

end Reaction

variable {c c' : Client}

/-- What an operation does on a well-formed client. -/
theorem step_cases (hc : c.WF) (op : Op) :
    (∃ e, c.step op = ⟨.error e, [], c⟩) ∨
      ∃ a acts c', c.step op = ⟨.ok a, acts, c'⟩ ∧ Steps c op a acts c' := by
  rcases Reaction.settles_react hc op with h | ⟨a, acts, c', hrun, h⟩
  · exact .inl h.run
  · exact .inr ⟨a, acts, c', hrun.run_ok, h⟩

/-- An operation that yields no identifier does what its reaction does. -/
theorem step_of_runs {op : Op} {x : Reaction Unit} {acts : List Action}
    (hop : op.react = x >>= fun _ => pure none) (h : x.Runs c (.ok ()) acts c') :
    c.step op = ⟨.ok none, acts, c'⟩ := by
  rw [step, hop]
  exact ((h.bind (Reaction.runs_pure none)).cast (List.append_nil acts) rfl).run_ok

/-- While there is a connection, a packet is received as it is handled. -/
theorem step_receive_of_runs {p : Packet} {acts : List Action} (hconn : c.isConnected)
    (h : (Reaction.handle p).Runs c (.ok ()) acts c') :
    c.step (.receive p) = ⟨.ok none, acts, c'⟩ := by
  have hrun : (Reaction.receive p).Runs c (.ok ()) acts c' := by
    refine Reaction.runs_client.bind ?_
    rw [if_neg (by simp [hconn])]
    exact h
  exact step_of_runs rfl hrun

/-- A packet is never refused, and while there is a connection it is received as it is handled. -/
theorem step_packet (hc : c.WF) (p : Packet) :
    ∃ acts c', Handles c p acts c' ∧ c.step (.handle p) = ⟨.ok none, acts, c'⟩ ∧
      (c.isConnected → c.step (.receive p) = ⟨.ok none, acts, c'⟩) := by
  obtain ⟨acts, c', hrun, h⟩ := Reaction.runs_handle hc p
  exact ⟨acts, c', h, step_of_runs rfl hrun, fun hconn => step_receive_of_runs hconn hrun⟩

/-- CONNACK is received as it is handled, with or without a connection. -/
theorem step_connAck (hc : c.WF) {op : Op} (p : ConnAck)
    (hop : op = .receive (.connAck p) ∨ op = .handle (.connAck p)) :
    ∃ acts c', Joins c p acts c' ∧ c.step op = ⟨.ok none, acts, c'⟩ := by
  obtain ⟨acts, c', hrun, h⟩ := Reaction.runs_handle hc (.connAck p)
  have hjoins : Joins c p acts c' := by
    cases h with
    | connAck h => exact h
    | clientOnly hp => simp [Packet.packetType] at hp
  have hreceive : (Reaction.receive (.connAck p)).Runs c (.ok ()) acts c' := by
    refine Reaction.runs_client.bind ?_
    rw [if_neg (by simp [Packet.packetType])]
    exact hrun
  refine ⟨acts, c', hjoins, ?_⟩
  rcases hop with rfl | rfl
  · exact step_of_runs rfl hreceive
  · exact step_of_runs rfl hrun

/-- Without a connection one is started, if CONNECT can be written. -/
theorem step_connect {o : ConnectOptions} {frame : Bytes} (hp : c.phase = .disconnected)
    (hf : (Packet.connect (.ofOptions o)).toBytes = .ok frame) (now : Nat) :
    ∃ acts c', Connects c o now acts c' ∧ c.step (.connect o now) = ⟨.ok none, acts, c'⟩ := by
  obtain ⟨acts, c', hrun, h⟩ := Reaction.runs_connect hp hf now
  exact ⟨acts, c', h, step_of_runs rfl hrun⟩

/-- A connection is ended, if there is one. -/
theorem step_disconnect (hconn : c.isConnected) (now : Nat) :
    ∃ acts c', Disconnects c now acts c' ∧ c.step (.disconnect now) = ⟨.ok none, acts, c'⟩ := by
  obtain ⟨acts, c', hrun, h⟩ := Reaction.runs_disconnect hconn now
  exact ⟨acts, c', h, step_of_runs rfl hrun⟩

/-- The connection is lost, if there is one. -/
theorem step_connectionLost (c : Client) (now : Nat) :
    ∃ acts c', Loses c now acts c' ∧ c.step (.connectionLost now) = ⟨.ok none, acts, c'⟩ := by
  obtain ⟨acts, c', hrun, h⟩ := Reaction.runs_connectionLost (c := c) now
  exact ⟨acts, c', h, step_of_runs rfl hrun⟩

/-! ## The options -/

theorem options_overrides (p : Properties) (c : Client) :
    (Reaction.overrides p c).options = c.options := by
  unfold Reaction.overrides
  split <;> rfl

theorem Handles.options {p : Packet} {acts : List Action} (h : Handles c p acts c') :
    c'.options = c.options := by
  cases h with
  | connAck h =>
    cases h with
    | unexpected | refused => rfl
    | fresh => exact options_overrides _ c
    | resumed hp hr hs h =>
      rw [h.frame]
      exact options_overrides _ c
  | publish h => cases h <;> rfl
  | ack h => cases h <;> rfl
  | subAck | subAckUnknown | unsubAck | unsubAckUnknown | pingResp | closed | clientOnly => rfl

theorem Steps.options {op : Op} {a : Option UInt16} {acts : List Action}
    (h : Steps c op a acts c') : c'.options = c.options := by
  cases h with
  | receive _ h | handle h => exact h.options
  | connect h => cases h <;> rfl
  | early => rfl
  | publish _ h => cases h <;> rfl
  | publishWithId _ _ _ h => cases h <;> rfl
  | subscribe _ h => cases h; rfl
  | subscribeWithId _ _ h => cases h; rfl
  | unsubscribe _ h => cases h; rfl
  | unsubscribeWithId _ _ h => cases h; rfl
  | acknowledge _ h => cases h <;> rfl
  | abandon h => cases h <;> rfl
  | ping h => cases h <;> rfl
  | disconnect h => cases h <;> rfl
  | connectionLost h => cases h <;> rfl
  | restore h => cases h; rfl

/-- The options of a client never change. -/
theorem options_step (hc : c.WF) (op : Op) : (c.step op).client.options = c.options := by
  rcases step_cases hc op with ⟨e, h⟩ | ⟨a, acts, c', h, hs⟩ <;> rw [h]
  exact hs.options

/-! ## Runs -/

theorem after_append (c : Client) (ops ops' : List Op) :
    c.after (ops ++ ops') = (c.after ops).after ops' :=
  List.foldl_append

theorem actionsOf_append (c : Client) (ops ops' : List Op) :
    c.actionsOf (ops ++ ops') = c.actionsOf ops ++ (c.after ops).actionsOf ops' := by
  induction ops generalizing c with
  | nil => rfl
  | cons op ops ih =>
    rw [List.cons_append, actionsOf, actionsOf, ih, List.append_assoc]
    rfl

end Client

end Mqtt
