import Mqtt.Client.Operation
import Mqtt.Proofs.Client.Agreement
import Mqtt.Proofs.Client.Connections
import Mqtt.Proofs.Client.Received

/-!
# Operations are blind to places

Every reaction of a client is blind to the places in its ledger. So clients that are alike stay
alike whatever happens to both, and nothing that they do tells them apart: `Alike.step` for one
operation, `Alike.after` for any number of them.
-/

namespace Mqtt

namespace Client

namespace Reaction

/-! ## Requests -/

theorem blind_publishTracked (p : Publish) (id : UInt16) : (publishTracked p id).Blind :=
  (blind_lift _).bind fun frame => (blind_lift _).bind fun e =>
    (blind_record fun _ _ hst => hst.track e).bind fun _ =>
      (blind_send frame).bind fun _ => blind_pure (some id)

theorem blind_publish (p : Publish) : (publish p).Blind :=
  Blind.requiring <| blind_client fun _ _ _ =>
    blind_ite ((blind_lift _).bind fun frame => (blind_send frame).bind fun _ => blind_pure none)
      (Blind.holding (blind_publishTracked _) p.id)

theorem blind_publishWithId (id : UInt16) (p : Publish) : (publishWithId id p).Blind :=
  blind_ite (blind_throw _) <| blind_ite (blind_throw _) <|
    (blind_publish _).bind fun _ => blind_pure ()

theorem blind_abandon (id : UInt16) : (abandon id).Blind :=
  blind_session fun s t hst => by
    rw [hst.ledger.get? (.outbound id)]
    cases t.ledger.get? (.outbound id) with
    | some e => exact blind_ite (blind_complete _) (blind_pure ())
    | none => exact blind_pure ()

theorem blind_subscribe (filters : List TopicFilter) (asked : Option UInt16) :
    (subscribe filters asked).Blind := by
  refine Blind.requiring <| blind_ite (blind_throw _) <| Blind.holding (fun id => ?_) asked
  refine blind_client fun _ _ _ => (blind_lift _).bind fun frame => ?_
  exact (blind_updateSession fun _ _ => rfl).bind fun _ =>
    (blind_send frame).bind fun _ => blind_pure id

theorem blind_subscribeWithId (id : UInt16) (filter : TopicFilter) :
    (subscribeWithId id filter).Blind :=
  blind_ite (blind_throw _) <| (blind_subscribe _ _).bind fun _ => blind_pure ()

theorem blind_unsubscribe (filter : String) (asked : Option UInt16) :
    (unsubscribe filter asked).Blind := by
  refine Blind.requiring <| Blind.holding (fun id => ?_) asked
  refine blind_client fun _ _ _ => (blind_lift _).bind fun frame => ?_
  exact (blind_updateSession fun _ _ => rfl).bind fun _ =>
    (blind_send frame).bind fun _ => blind_pure id

theorem blind_unsubscribeWithId (id : UInt16) (filter : String) :
    (unsubscribeWithId id filter).Blind :=
  blind_ite (blind_throw _) <| (blind_unsubscribe _ _).bind fun _ => blind_pure ()

theorem blind_sendPubRec (id : UInt16) (reason : Reason) : (sendPubRec id reason).Blind :=
  Blind.requiring <| blind_session fun s t hst => by
    rw [hst.ledger.contains (.inbound id)]
    exact blind_ite (blind_resend _) (blind_ite (blind_sendAck _ _ _) (blind_trackInbound _ _))

theorem blind_sendPubRel (id : UInt16) (reason : Reason) : (sendPubRel id reason).Blind :=
  Blind.requiring <| blind_session fun s t hst => by
    rw [hst.ledger.awaits? (.outbound id)]
    split
    · exact blind_releaseOutbound _ _
    · exact blind_resend _
    · exact blind_throw _
    · exact blind_throw _

theorem blind_sendPubComp (id : UInt16) (reason : Reason) : (sendPubComp id reason).Blind :=
  Blind.requiring <| blind_client fun _ _ _ => (blind_lift _).bind fun frame =>
    (blind_complete _).bind fun _ => blind_send frame

theorem blind_acknowledge (kind : AckKind) (id : UInt16) (reason : Reason) :
    (acknowledge kind id reason).Blind := by
  cases kind with
  | pubAck => exact Blind.requiring (blind_sendAck _ _ _)
  | pubRec => exact blind_sendPubRec id reason
  | pubRel => exact blind_sendPubRel id reason
  | pubComp => exact blind_sendPubComp id reason

theorem blind_request (r : Request) : r.react.Blind := by
  cases r with
  | publish p => exact blind_publish p
  | publishWithId id p => exact (blind_publishWithId id p).bind fun _ => blind_pure none
  | subscribe filters asked => exact (blind_subscribe filters asked).map some
  | subscribeWithId id filter =>
    exact (blind_subscribeWithId id filter).bind fun _ => blind_pure none
  | unsubscribe filter => exact (blind_unsubscribe filter none).map some
  | unsubscribeWithId id filter =>
    exact (blind_unsubscribeWithId id filter).bind fun _ => blind_pure none
  | acknowledge kind id reason =>
    exact (blind_acknowledge kind id reason).bind fun _ => blind_pure none

theorem blind_ping : ping.Blind :=
  blind_client fun _ _ _ =>
    blind_ite (Blind.guarded ((blind_lift _).bind fun frame => blind_send frame)) (blind_pure ())

/-! ## Packets -/

theorem blind_currentFrame (k : Key) (e : Exchange) : (currentFrame k e).Blind :=
  blind_client fun c _ _ => blind_ite (blind_pure _) <| (blind_lift _).bind fun frame =>
    (blind_record fun _ _ hst => hst.reencode k frame c.version).bind fun _ => blind_pure frame

theorem blind_resume (k : Key) : (resume k).Blind :=
  blind_session fun s t hst => by
    rw [hst.ledger.get? k]
    cases t.ledger.get? k with
    | none => exact blind_pure ()
    | some e =>
      exact (blind_currentFrame k e).bind fun frame =>
        blind_ite (blind_send frame) ((blind_lift _).bind fun frame => blind_send frame)

theorem blind_resumeAll : resumeAll.Blind :=
  blind_session fun s t hst => by
    rw [hst.ledger.keys]
    exact blind_forM blind_resume _

theorem overrides_withLedger (properties : Properties) (c : Client) (l : Ledger) :
    overrides properties { c with session := { c.session with ledger := l } } =
      { overrides properties c with
        session := { (overrides properties c).session with ledger := l } } := by
  unfold overrides
  dsimp only
  split <;> rfl

/-- What an accepted connection leads to once the client has noted it. -/
theorem blind_announce (p : ConnAck) :
    (do
      emit (.connAck p.sessionPresent p.reason)
      let seconds := (← client).keepAlive
      if 0 < seconds then perform (.keepAlive seconds)
      if p.sessionPresent then resumeAll : Reaction Unit).Blind :=
  (blind_emit _).bind fun _ => blind_client fun _ _ _ =>
    blind_ite ((blind_perform _).bind fun _ => blind_ite blind_resumeAll (blind_pure ()))
      (blind_ite blind_resumeAll (blind_pure ()))

theorem blind_greet (p : ConnAck) : (greet p).Blind :=
  (blind_update fun _ _ => rfl).bind fun _ => blind_announce p

theorem blind_accepted (p : ConnAck) : (accepted p).Blind := by
  rw [accepted_eq]
  refine (blind_update (overrides_withLedger p.properties)).bind fun _ => ?_
  refine blind_session fun s t hst => ?_
  rw [hst.isEmpty]
  exact blind_ite (blind_purge.bind fun _ => blind_greet p) (blind_greet p)

theorem blind_refused (reason : Reason) : (refused reason).Blind :=
  (blind_update fun _ _ => rfl).bind fun _ =>
    (blind_emit _).bind fun _ => (blind_emit _).bind fun _ => blind_perform _

theorem blind_onConnAck (p : ConnAck) : (onConnAck p).Blind :=
  blind_client fun _ _ _ => blind_ite (blind_throw _) <|
    blind_ite (blind_refused p.reason) (blind_accepted p)

theorem blind_take (message : Option Message) (step : Delivery.Step) :
    (take message step).Blind := by
  cases step with
  | deliver =>
    cases message with
    | some m => exact blind_emit _
    | none => exact blind_pure ()
  | sendPubAck | sendPubComp => exact blind_sendAck _ _ _
  | sendPubRec => exact blind_trackInbound _ _
  | resendPubRec | resendPubRel => exact blind_resend _
  | sendPubRel => exact blind_releaseOutbound _ _
  | complete => exact blind_complete _
  | unsolicited => exact blind_pure ()
  | outOfOrder => exact blind_throw _

theorem blind_takeAll (message : Option Message) (steps : List Delivery.Step) :
    (takeAll message steps).Blind :=
  blind_forM (blind_take message) steps

theorem repeated_eq {l m : Ledger} (h : l.Same m) (p : Publish) : repeated l p = repeated m p := by
  unfold repeated
  split
  · exact h.awaits? _
  · rfl

theorem blind_onPublish (p : Publish) : (onPublish p).Blind :=
  blind_session fun s t hst => by
    rw [repeated_eq hst.ledger]
    exact blind_client fun _ _ _ => blind_takeAll _ _

theorem blind_onReply (kind : AckKind) (a : Ack) (steps : Option PacketType → List Delivery.Step) :
    (onReply kind a steps).Blind :=
  blind_session fun s t hst => by
    rw [hst.ledger.awaits? (.outbound a.id)]
    exact (blind_takeAll _ _).bind fun _ => blind_ite (blind_emit _) (blind_pure ())

theorem blind_onPubRel (a : Ack) : (onPubRel a).Blind :=
  blind_session fun s t hst => by
    rw [hst.ledger.awaits? (.inbound a.id)]
    exact blind_client fun _ _ _ => (blind_takeAll _ _).bind fun _ => blind_emit _

theorem blind_onAck (kind : AckKind) (a : Ack) : (onAck kind a).Blind := by
  cases kind with
  | pubAck => exact blind_onReply _ _ _
  | pubRec => exact blind_client fun _ _ _ => blind_onReply _ _ _
  | pubRel => exact blind_onPubRel a
  | pubComp => exact blind_onReply _ _ _

theorem blind_onSubAck (p : FilterAck) : (onSubAck p).Blind :=
  blind_session fun s t hst => by
    have hafter := hst.completeSubscribe p.id
    generalize s.completeSubscribe p.id = a, t.completeSubscribe p.id = b at hafter
    obtain ⟨done, hafter⟩ := hafter
    exact (agree_updateSession fun _ _ _ => hafter).bind fun _ _ _ =>
      blind_ite (blind_emit _) (blind_pure ())

theorem blind_onUnsubAck (p : FilterAck) : (onUnsubAck p).Blind :=
  blind_session fun s t hst => by
    have hafter := hst.completeUnsubscribe p.id
    generalize s.completeUnsubscribe p.id = a, t.completeUnsubscribe p.id = b at hafter
    obtain ⟨done, hafter⟩ := hafter
    exact (agree_updateSession fun _ _ _ => hafter).bind fun _ _ _ =>
      blind_ite (blind_emit _) (blind_pure ())

theorem blind_onDisconnect (p : Disconnect) : (onDisconnect p).Blind :=
  blind_ite ((blind_emit _).bind fun _ => blind_perform _) (blind_perform _)

theorem blind_handle (p : Packet) : (handle p).Blind := by
  cases p with
  | connAck p => exact (blind_onConnAck p).guarded
  | publish p => exact (blind_onPublish p).guarded
  | ack kind a => exact (blind_onAck kind a).guarded
  | subAck p => exact blind_onSubAck p
  | unsubAck p => exact blind_onUnsubAck p
  | pingResp => exact blind_pure ()
  | disconnect p => exact blind_onDisconnect p
  | connect | subscribe | unsubscribe | pingReq => exact (blind_throw _).guarded

theorem blind_receive (p : Packet) : (receive p).Blind :=
  blind_client fun _ _ _ => blind_ite (blind_throw _).guarded (blind_handle p)

/-! ## Connections -/

theorem hasExpired_eq {s t : Session} (h : s.Alike t) (now : Nat) :
    s.hasExpired now = t.hasExpired now := by
  obtain ⟨l, hl, rfl⟩ := h
  rfl

theorem blind_connect (o : ConnectOptions) (now : Nat) : (connect o now).Blind := by
  refine blind_client fun _ _ _ => blind_ite (blind_throw _) <| (blind_lift _).bind fun frame => ?_
  have hsend : (do update (·.connecting o); send frame : Reaction Unit).Blind :=
    (blind_update fun _ _ => rfl).bind fun _ => blind_send frame
  refine blind_session fun s t hst => ?_
  rw [hasExpired_eq hst now]
  exact blind_ite (blind_purge.bind fun _ => hsend) hsend

theorem blind_disconnect (now : Nat) : (disconnect now).Blind := by
  have hdrop : (update fun c => { c with
      phase := .disconnected, session := c.session.dropRequests }).Blind :=
    blind_update fun c l => by rw [Session.dropRequests_withLedger]
  have hclose : (do emit .close; perform .close : Reaction Unit).Blind :=
    (blind_emit _).bind fun _ => blind_perform _
  refine Blind.requiring <| blind_client fun _ _ _ => (blind_lift _).bind fun frame =>
    (blind_send frame).bind fun _ => hdrop.bind fun _ => blind_session fun s t hst => ?_
  have hexpiry : s.expiry = t.expiry := by
    obtain ⟨l, hl, rfl⟩ := hst
    rfl
  rw [hexpiry]
  exact blind_ite ((blind_updateSession fun _ _ => rfl).bind fun _ => hclose)
    (blind_purge.bind fun _ => hclose)

theorem blind_connectionLost (now : Nat) : (connectionLost now).Blind := by
  have hdrop : (update fun c => { c with
      phase := .disconnected
      session := { c.session.dropRequests with endedAt := some now } }).Blind :=
    blind_update fun c l => by rw [Session.dropRequests_withLedger]
  exact blind_client fun _ _ _ => blind_ite (blind_pure ()) <| hdrop.bind fun _ => blind_emit _

theorem blind_restore (id : UInt16) (data : Bytes) : (restore id data).Blind :=
  blind_client fun _ _ _ => blind_ite (blind_throw _) <| (blind_lift _).bind fun e =>
    blind_session fun _ _ hst => (agree_lift (hst.restore e)).bind fun _ _ hst' =>
      agree_updateSession fun _ _ _ => hst'

/-- What a client does about an operation is blind to places. -/
theorem blind_react (op : Op) : op.react.Blind := by
  cases op with
  | connect o now => exact (blind_connect o now).bind fun _ => blind_pure none
  | receive p => exact (blind_receive p).bind fun _ => blind_pure none
  | handle p => exact (blind_handle p).bind fun _ => blind_pure none
  | request r => exact blind_request r
  | abandon id => exact (blind_abandon id).bind fun _ => blind_pure none
  | ping => exact blind_ping.bind fun _ => blind_pure none
  | disconnect now => exact (blind_disconnect now).bind fun _ => blind_pure none
  | connectionLost now => exact (blind_connectionLost now).bind fun _ => blind_pure none
  | restore id data => exact (blind_restore id data).bind fun _ => blind_pure none

end Reaction

variable {c d : Client}

/-- Nothing that clients do tells them apart if they are alike. -/
theorem Alike.step (h : c.Alike d) (op : Op) : (c.step op).result = (d.step op).result ∧
    (c.step op).actions = (d.step op).actions ∧ (c.step op).client.Alike (d.step op).client :=
  (Reaction.blind_react op c d h).run

theorem Alike.after (h : c.Alike d) (ops : List Op) : (c.after ops).Alike (d.after ops) := by
  induction ops generalizing c d with
  | nil => exact h
  | cons op ops ih => exact ih (h.step op).2.2

end Client

end Mqtt
