import Mqtt.Proofs.Client.Exchanges

/-!
# What a request does

For each kind of request a relation between the client, what was asked, the actions and the client
afterwards: `Publishes`, `Subscribes`, `Unsubscribes`, `Acknowledges` and `Abandons`. A request is
refused and leaves the client as it was, or it runs as its relation says: `settles_publish` and so
on.
-/

namespace Mqtt

namespace Client

/-! ## Publishing -/

/-- A message is published. -/
inductive Publishes (c : Client) (p : Publish) : Option UInt16 → List Action → Client → Prop
  /-- At QoS 0 nothing is kept of the message. -/
  | once {frame : Bytes} (hq : p.qos = .atMostOnce)
      (hf : (Packet.publish { p with version := c.version, dup := false, id := none }).toBytes =
        .ok frame) :
      Publishes c p none [.send frame] c
  /-- Above QoS 0 an exchange is started. -/
  | tracked {id : UInt16} {ids : IdPool} {e : Exchange} {l : Ledger} (hq : p.qos ≠ .atMostOnce)
      (hid : c.session.ids.claim p.id = .ok (id, ids))
      (hf : (Packet.publish { p with version := c.version, dup := false, id := some id }).toBytes =
        .ok e.frame)
      (he : e = ⟨id, .outbound, Reaction.firstAwaited p.qos, p.qos, e.frame, c.version⟩)
      (hc : e.check = .ok ()) (hl : Ledger.Started c.session.ledger e l) :
      Publishes c p (some id) [.persist (.started e), .send e.frame]
        { c with session := { c.session with ids, ledger := l } }

namespace Reaction

variable {c : Client}

/-- The exchange of a message above QoS 0 passes its check. -/
theorem check_published {p : Publish} {id : UInt16} {qos : QoS} {frame : Bytes} {v : Version}
    (hq : qos ≠ .atMostOnce) (hid : id ≠ 0) (hf : (Packet.publish p).toBytes = .ok frame) :
    (Exchange.mk id .outbound (firstAwaited qos) qos frame v).check = .ok () := by
  have htype : frame.headD 0 / 16 = PacketType.publish.toByte := Packet.type_of_toBytes hf
  cases qos with
  | atMostOnce => exact absurd rfl hq
  | atLeastOnce => exact Exchange.check_eq_ok_iff.2 ⟨hid, rfl, htype⟩
  | exactlyOnce => exact Exchange.check_eq_ok_iff.2 ⟨hid, rfl, htype⟩

theorem settles_publish (hc : c.session.WF) (p : Publish) :
    (publish p).Settles c fun a acts c' => c.isConnected ∧ Publishes c p a acts c' := by
  refine settles_requireConnected fun hconn => runs_client.bind_settles ?_
  by_cases hq : p.qos = .atMostOnce
  · simp only [if_pos hq]
    rcases hf : (Packet.publish { p with version := c.version, dup := false, id := none }).toBytes
      with err | frame
    · exact (runs_lift_error rfl).bind_error.settles_error
    · refine Runs.settles ?_ ⟨hconn, .once hq hf⟩
      exact (runs_lift_ok rfl).bind ((runs_send frame).bind (runs_pure none))
  simp only [if_neg hq]
  rcases hid : c.session.ids.claim p.id with err | ⟨id, ids⟩
  · exact (runs_holding_error hid).settles_error
  have hands := IdPool.hands_of_claim hc.ids hid
  refine Settles.holding hc.ids hid ?_
  rcases hf : (Packet.publish { p with version := c.version, dup := false, id := some id }).toBytes
    with err | frame
  · exact (runs_lift_error hf).bind_error.settles_error
  have hcheck :
      (Exchange.mk id .outbound (firstAwaited p.qos) p.qos frame c.version).check = .ok () :=
    check_published hq hands.ne_zero hf
  -- the identifier was not held, so no exchange has it
  have hfresh : Key.outbound id ∉ c.session.ledger.keys := hc.not_mem_keys hands.fresh
  obtain ⟨l, hl⟩ := Ledger.insert_eq_ok hc.ledger (e := ⟨id, .outbound, _, p.qos, frame, _⟩) hfresh
  have hstarted := Ledger.started_of_insert hc.ledger hl
  refine Runs.settles ?_ ⟨hconn, .tracked hq hid hf rfl hcheck hstarted⟩
  refine (runs_lift_ok hf).bind ?_
  refine (runs_lift_ok (Exchange.checked_eq_ok hcheck)).bind ?_
  refine (runs_record (Session.track_eq (s := { c.session with ids }) hl)).bind ?_
  exact (runs_send frame).bind (runs_pure (some id))

end Reaction

/-! ## Subscribing -/

/-- A SUBSCRIBE is sent, and its answer is waited for. -/
inductive Subscribes (c : Client) (filters : List TopicFilter) (asked : Option UInt16) :
    UInt16 → List Action → Client → Prop
  | sent {id : UInt16} {ids : IdPool} {frame : Bytes} (hne : filters ≠ [])
      (hid : c.session.ids.claim asked = .ok (id, ids))
      (hf : (Packet.subscribe ⟨id, filters, .empty, c.version⟩).toBytes = .ok frame) :
      Subscribes c filters asked id [.send frame]
        { c with
          session := Session.trackSubscribe { c.session with ids } id
            ⟨filters.map (·.filter), filters.map (·.options.qos)⟩ }

/-- An UNSUBSCRIBE is sent, and its answer is waited for. -/
inductive Unsubscribes (c : Client) (filter : String) (asked : Option UInt16) :
    UInt16 → List Action → Client → Prop
  | sent {id : UInt16} {ids : IdPool} {frame : Bytes}
      (hid : c.session.ids.claim asked = .ok (id, ids))
      (hf : (Packet.unsubscribe ⟨id, [filter], .empty, c.version⟩).toBytes = .ok frame) :
      Unsubscribes c filter asked id [.send frame]
        { c with session := Session.trackUnsubscribe { c.session with ids } id ⟨[filter]⟩ }

namespace Reaction

variable {c : Client}

theorem settles_subscribe (hc : c.session.WF) (filters : List TopicFilter)
    (asked : Option UInt16) : (subscribe filters asked).Settles c fun id acts c' =>
      c.isConnected ∧ Subscribes c filters asked id acts c' := by
  refine settles_requireConnected fun hconn => ?_
  cases filters with
  | nil => exact (runs_throw _).bind_error.settles_error
  | cons f fs =>
    change (holding asked (subscribeTracked (f :: fs))).Settles c _
    rcases hid : c.session.ids.claim asked with err | ⟨id, ids⟩
    · exact (runs_holding_error hid).settles_error
    refine Settles.holding hc.ids hid (runs_client.bind_settles ?_)
    rcases hf : (Packet.subscribe ⟨id, f :: fs, .empty, c.version⟩).toBytes with err | frame
    · exact (runs_lift_error rfl).bind_error.settles_error
    refine Runs.settles ?_ ⟨hconn, .sent (List.cons_ne_nil f fs) hid hf⟩
    refine (runs_lift_ok rfl).bind ?_
    exact (runs_updateSession _).bind ((runs_send frame).bind (runs_pure id))

theorem settles_unsubscribe (hc : c.session.WF) (filter : String)
    (asked : Option UInt16) : (unsubscribe filter asked).Settles c fun id acts c' =>
      c.isConnected ∧ Unsubscribes c filter asked id acts c' := by
  refine settles_requireConnected fun hconn => ?_
  rcases hid : c.session.ids.claim asked with err | ⟨id, ids⟩
  · exact (runs_holding_error hid).settles_error
  refine Settles.holding hc.ids hid (runs_client.bind_settles ?_)
  rcases hf : (Packet.unsubscribe ⟨id, [filter], .empty, c.version⟩).toBytes with err | frame
  · exact (runs_lift_error rfl).bind_error.settles_error
  refine Runs.settles ?_ ⟨hconn, .sent hid hf⟩
  refine (runs_lift_ok rfl).bind ?_
  exact (runs_updateSession _).bind ((runs_send frame).bind (runs_pure id))

end Reaction

/-! ## Acknowledging -/

/-- An acknowledgment is sent for the application. -/
inductive Acknowledges (c : Client) (id : UInt16) (reason : Reason) :
    AckKind → List Action → Client → Prop
  | pubAck : Acknowledges c id reason .pubAck
      [.send (Retained.ackBytes c.version .pubAck id reason)] c
  /-- The message was acknowledged before. -/
  | pubRecAgain {e : Exchange} (he : e ∈ c.session.ledger.toList) (hk : e.key = .inbound id) :
      Acknowledges c id reason .pubRec [.send e.frame] c
  /-- The message is refused, so nothing is to follow. -/
  | pubRecRefusal (hk : Key.inbound id ∉ c.session.ledger.keys) (hr : reason.isError) :
      Acknowledges c id reason .pubRec [.send (Retained.ackBytes c.version .pubRec id reason)] c
  | pubRec {l : Ledger} (hid : id ≠ 0) (hr : reason.isError = false)
      (hl : Ledger.Started c.session.ledger (.receipt c.version id reason) l) :
      Acknowledges c id reason .pubRec
        [.persist (.started (.receipt c.version id reason)),
          .send (Retained.ackBytes c.version .pubRec id reason)]
        { c with session := { c.session with ledger := l } }
  | pubRel {e : Exchange} {l : Ledger} (hk : e.key = .outbound id) (ha : e.awaits = .pubRec)
      (hl : Ledger.Moved c.session.ledger e (e.released c.version reason) l) :
      Acknowledges c id reason .pubRel
        [.persist (.moved (e.released c.version reason)),
          .send (Retained.ackBytes c.version .pubRel id reason)]
        { c with session := { c.session with ledger := l } }
  /-- The message was released before. -/
  | pubRelAgain {e : Exchange} (he : e ∈ c.session.ledger.toList) (hk : e.key = .outbound id)
      (ha : e.awaits = .pubComp) : Acknowledges c id reason .pubRel [.send e.frame] c
  | pubComp (hk : Key.inbound id ∈ c.session.ledger.keys) :
      Acknowledges c id reason .pubComp
        [.persist (.erase (.inbound id)), .send (Retained.ackBytes c.version .pubComp id reason)]
        { c with session := (c.session.complete (.inbound id)).2 }
  /-- The exchange has ended before. -/
  | pubCompAgain (hk : Key.inbound id ∉ c.session.ledger.keys) :
      Acknowledges c id reason .pubComp [.send (Retained.ackBytes c.version .pubComp id reason)] c

/-- The application gives up on a message. -/
inductive Abandons (c : Client) (id : UInt16) : List Action → Client → Prop
  | message {e : Exchange} (he : e ∈ c.session.ledger.toList) (hk : e.key = .outbound id)
      (hr : e.retains = .publish) :
      Abandons c id [.persist (.erase (.outbound id))]
        { c with session := (c.session.complete (.outbound id)).2 }
  /-- There is no such message, or it went on to PUBREL. -/
  | nothing (h : ∀ e ∈ c.session.ledger.toList, e.key = .outbound id → e.retains ≠ .publish) :
      Abandons c id [] c

namespace Reaction

variable {c : Client}

theorem settles_sendPubRec (hc : c.session.WF) (id : UInt16)
    (reason : Reason) :
    (sendPubRec id reason).Settles c fun _ acts c' =>
      c.isConnected ∧ Acknowledges c id reason .pubRec acts c' := by
  refine settles_requireConnected fun hconn => runs_session.bind_settles ?_
  by_cases hk : Key.inbound id ∈ c.session.ledger.keys
  · simp only [hc.ledger.contains_iff.2 hk, ↓reduceIte]
    obtain ⟨e, he, hek⟩ := Ledger.mem_keys.1 hk
    exact (runs_resend hc he hek).settles ⟨hconn, .pubRecAgain he hek⟩
  simp only [hc.ledger.contains_eq_false_iff.2 hk, Bool.false_eq_true, ↓reduceIte]
  cases hr : reason.isError with
  | true => exact (runs_sendAck _ _ _).settles ⟨hconn, .pubRecRefusal hk hr⟩
  | false =>
    by_cases hid : id = 0
    · subst hid
      exact (runs_trackInbound_zero reason).settles_error
    · obtain ⟨l, hl, hrun⟩ := runs_trackInbound hc hid hk reason
      exact hrun.settles ⟨hconn, .pubRec hid hr hl⟩

theorem settles_sendPubRel (hc : c.session.WF) (id : UInt16)
    (reason : Reason) :
    (sendPubRel id reason).Settles c fun _ acts c' =>
      c.isConnected ∧ Acknowledges c id reason .pubRel acts c' := by
  refine settles_requireConnected fun hconn => runs_session.bind_settles ?_
  rw [Ledger.awaits?]
  rcases hget : c.session.ledger.get? (.outbound id) with _ | e
  · exact (runs_throw _).settles_error
  obtain ⟨he, hk⟩ := hc.ledger.get?_eq_some_iff.1 hget
  rw [Option.map_some]
  rcases Exchange.awaits_outbound (hc.checks e he) (Exchange.key_eq_outbound.1 hk).2 with
    ⟨ha, -⟩ | ⟨ha, -⟩ | ⟨ha, -⟩ <;> rw [ha]
  · exact (runs_throw _).settles_error
  · obtain ⟨l, hl, hrun⟩ := runs_releaseOutbound hc he hk ha reason
    exact hrun.settles ⟨hconn, .pubRel hk ha hl⟩
  · exact (runs_resend hc he hk).settles ⟨hconn, .pubRelAgain he hk ha⟩

theorem settles_acknowledge (hc : c.session.WF) (kind : AckKind)
    (id : UInt16) (reason : Reason) :
    (acknowledge kind id reason).Settles c fun _ acts c' =>
      c.isConnected ∧ Acknowledges c id reason kind acts c' := by
  cases kind with
  | pubAck =>
    refine settles_requireConnected fun hconn => ?_
    exact (runs_sendAck _ _ _).settles ⟨hconn, .pubAck⟩
  | pubRec => exact settles_sendPubRec hc id reason
  | pubRel => exact settles_sendPubRel hc id reason
  | pubComp =>
    refine settles_requireConnected fun hconn => runs_client.bind_settles ?_
    refine (runs_lift_ok (Retained.ack_eq ..)).bind_settles ?_
    by_cases hk : Key.inbound id ∈ c.session.ledger.keys
    · exact ((runs_complete hc hk).bind (runs_send _)).settles ⟨hconn, .pubComp hk⟩
    · exact ((runs_complete_none hc hk).bind (runs_send _)).settles ⟨hconn, .pubCompAgain hk⟩

theorem runs_abandon (hc : c.session.WF) (id : UInt16) :
    ∃ acts c', (abandon id).Runs c (.ok ()) acts c' ∧ Abandons c id acts c' := by
  unfold abandon
  rcases hget : c.session.ledger.get? (.outbound id) with _ | e
  · refine ⟨_, c, runs_session.bind ?_, .nothing fun e he hk => ?_⟩
    · rw [hget]
      exact runs_pure ()
    · rw [hc.ledger.get?_eq_some_iff.2 ⟨he, hk⟩] at hget
      cases hget
  obtain ⟨he, hk⟩ := hc.ledger.get?_eq_some_iff.1 hget
  by_cases hr : e.retains = .publish
  · refine ⟨_, _, runs_session.bind ?_, .message he hk hr⟩
    simp only [hget, hr, ↓reduceIte]
    exact runs_complete hc (Ledger.mem_keys.2 ⟨e, he, hk⟩)
  · refine ⟨_, c, runs_session.bind ?_, .nothing fun e' he' hk' => ?_⟩
    · simp only [hget, hr, ↓reduceIte]
      exact runs_pure ()
    · rwa [hc.ledger.eq_of_key_eq he' he (hk'.trans hk.symm)]

end Reaction

end Client

end Mqtt
