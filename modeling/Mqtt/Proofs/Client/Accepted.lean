import Mqtt.Proofs.Client.Retained

/-!
# Frames that are accepted

Every frame that a client writes is accepted in the version of the connection, in every run of
operations that takes in no record and makes none of three slips (`Slips`): no check stops an
acknowledgment of identifier zero unless an exchange is started or moved on with it, a reason that
the acknowledgment may not give, or a subscription with the fourth way of handling retained
messages, which there is not. `sent_frames_accepted` is the theorem, and
`sent_frames_refused_after_slips` shows what is sent, and not accepted, after each slip.
-/

namespace Mqtt

/-- The properties of a connection are built one after the other. -/
theorem ConnectProperties.built_toProperties (p : ConnectProperties) : p.toProperties.Built := by
  have hexpiry : (p.sessionExpiry.map Properties.empty.setSessionExpiry).getD .empty |>.Built := by
    cases p.sessionExpiry with
    | none => exact .empty
    | some seconds => exact .setSessionExpiry seconds .empty
  have hmaximum : ∀ {ps : Properties}, ps.Built →
      ((p.receiveMaximum.map ps.setReceiveMaximum).getD ps).Built := fun h => by
    cases p.receiveMaximum with
    | none => exact h
    | some n => exact .setReceiveMaximum n h
  have hsize : ∀ {ps : Properties}, ps.Built →
      ((p.maximumPacketSize.map ps.setMaximumPacketSize).getD ps).Built := fun h => by
    cases p.maximumPacketSize with
    | none => exact h
    | some n => exact .setMaximumPacketSize n h
  have huser : ∀ (user : List (String × String)) {ps : Properties}, ps.Built →
      (user.foldl (fun ps u => ps.addUser u.1 u.2) ps).Built := fun user => by
    induction user with
    | nil => exact id
    | cons u user ih => exact fun h => ih (.addUser u.1 u.2 h)
  exact huser p.user (hsize (hmaximum hexpiry))

namespace Exchange

variable {e : Exchange}

/-- A retained PUBREC or PUBREL is accepted in every version. -/
theorem Genuine.accepted (h : e.Genuine) (hne : e.retains ≠ .publish) (v : Version) :
    ∃ p, Packet.decodeFrame e.frame v = .ok p := by
  cases h with
  | @publish w p id frame =>
    exact absurd (retains_published id p.qos frame w) hne
  | receipt hid hr => exact ⟨_, Retained.decodeFrame_ackBytes hid hr v⟩
  | release hid hr => exact ⟨_, Retained.decodeFrame_ackBytes hid hr v⟩

/-- What sends an outbound exchange again is accepted in the version of the exchange. -/
theorem Genuine.replay_accepted (h : e.Genuine) (hd : e.direction = .outbound) :
    ∃ p, Packet.decodeFrame e.replay e.version = .ok p := by
  by_cases ha : e.awaits = .pubComp
  · rw [replay, if_pos ha]
    exact h.accepted (by rw [retains_outbound hd, if_pos ha]; decide) e.version
  · have hm := markDup_frame h.check hd ha
    cases h with
    | publish hsay hsound hid hq hdup hf =>
      exact ⟨_, hsay.decodeFrame_of_markDup hsound hq hdup hf hm⟩
    | receipt => cases hd
    | release => exact absurd rfl ha

end Exchange

namespace Client

/-- The operation makes the client send something that no check stops. -/
inductive Slips (c : Client) : Op → Prop
  /-- Nothing is ever sent or received under identifier zero. -/
  | zero {op : Op} {kind : AckKind} {reason : Reason} (h : c.Gives op kind 0 reason)
      (hk : kind.Loose reason) : Slips c op
  | reason {op : Op} {kind : AckKind} {id : UInt16} {reason : Reason}
      (h : c.Gives op kind id reason) (hr : ¬kind.permits (reason.inVersion c.version)) : Slips c op
  | retainHandling {op : Op} {filters : List TopicFilter} {f : TopicFilter}
      (hop : op.Subscribing filters) (hv : c.version = .v5) (hf : f ∈ filters)
      (hr : f.options.retainHandling % 4 = 3) : Slips c op

/-- The operation takes in no record, makes no slip, and a message has properties that can be
built. -/
structure Careful (c : Client) (op : Op) : Prop where
  unrestored : ∀ id data, op ≠ .restore id data
  built : op.Built
  spotless : ¬c.Slips op

/-- Whatever the client is like, the operation makes no slip: no identifier is zero, by hand only
permitted reasons are given, and there are three ways of handling retained messages. -/
def Op.Tidy : Op → Prop
  | .restore _ _ => False
  | .receive p | .handle p => p.id? ≠ some 0
  | .request (.acknowledge kind id reason) => id ≠ 0 ∧ kind.permits reason
  | .request (.publish p) | .request (.publishWithId _ p) => p.properties.Built
  | .request (.subscribe filters _) => ∀ f ∈ filters, f.options.retainHandling % 4 ≠ 3
  | .request (.subscribeWithId _ filter) => filter.options.retainHandling % 4 ≠ 3
  | _ => True

variable {c c' : Client} {op : Op} {frame : Bytes}

theorem Gives.tidy {kind : AckKind} {id : UInt16} {reason : Reason}
    (h : c.Gives op kind id reason) (hop : op.Tidy) : id ≠ 0 ∧ kind.permits reason := by
  have hanswer : ∀ {p : Packet}, op = .receive p ∨ op = .handle p → p.id? ≠ some 0 := fun heq => by
    rcases heq with rfl | rfl <;> exact hop
  cases h with
  | byHand => exact hop
  | received _ heq hid => exact ⟨fun hz => hanswer heq (hz ▸ hid), AckKind.permits_success _⟩
  | released _ heq => exact ⟨fun hz => hanswer heq (hz ▸ rfl), rfl⟩
  | ended _ heq hr => exact ⟨fun hz => hanswer heq (hz ▸ rfl), by rcases hr with rfl | rfl <;> rfl⟩

theorem careful_of_tidy (hop : op.Tidy) : c.Careful op where
  unrestored id data heq := by
    subst heq
    exact hop
  built := by
    unfold Op.Built
    split
    · exact hop
    · exact hop
    · trivial
  spotless h := by
    cases h with
    | zero h => exact (h.tidy hop).1 rfl
    | reason h hr => exact hr (AckKind.permits_inVersion (h.tidy hop).2 _)
    | retainHandling hsub hv hf hr =>
      cases hsub with
      | subscribe => exact hop _ hf hr
      | subscribeWithId => exact hop (List.mem_singleton.1 hf ▸ hr)

/-- A packet that an operation makes is accepted. -/
theorem Makes.accepted {p : Packet} (h : c.Makes op p) (hop : c.Careful op)
    (hf : p.toBytes = .ok frame) (hne : ∀ o now, op ≠ .connect o now) :
    ∃ q, Packet.decodeFrame frame c.version = .ok q := by
  cases h with
  | connect o now => exact absurd rfl (hne o now)
  | @publish op p id hp honce htracked =>
    rw [← Packet.toBytes_asSaid] at hf
    let q : Publish := { p with version := c.version, dup := false, id }
    have hsay : q.asSaid.Sayable c.version := Publish.sayable_asSaid (p := q) rfl honce htracked
    have hsound := (hp.sound hop.built).inVersion c.version
    exact ⟨_, Packet.Sayable.decodeFrame_of_toBytes (p := .publish q.asSaid) hsay hsound hf⟩
  | @subscribe op filters id hsub hid hfilters =>
    rw [← Packet.toBytes_asSaid] at hf
    let q : Subscribe := ⟨id, filters, .empty, c.version⟩
    have hsay : q.asSaid.Sayable c.version :=
      Subscribe.sayable_asSaid (p := q) hid hfilters fun hv f hmem hr =>
        hop.spotless (.retainHandling hsub hv hmem hr)
    have hsound := Properties.sound_empty.inVersion c.version
    exact ⟨_, Packet.Sayable.decodeFrame_of_toBytes (p := .subscribe q.asSaid) hsay hsound hf⟩
  | @unsubscribe op filter hun id =>
    have hsay : (Packet.unsubscribe ⟨id, [filter], .empty, c.version⟩).Sayable c.version :=
      ⟨rfl, List.cons_ne_nil _ _, fun _ => rfl⟩
    exact ⟨_, hsay.decodeFrame_of_toBytes Properties.sound_empty hf⟩
  | pingReq =>
    have hsay : Packet.pingReq.Sayable c.version := trivial
    exact ⟨_, hsay.decodeFrame_of_toBytes Properties.sound_empty hf⟩
  | disconnect now =>
    have hsay : (Packet.disconnect (.normal c.version)).Sayable c.version :=
      ⟨rfl, fun _ => ⟨rfl, rfl⟩⟩
    exact ⟨_, hsay.decodeFrame_of_toBytes Properties.sound_empty hf⟩

/-- CONNECT is accepted in every version, since it tells its own. -/
theorem accepted_connect {o : ConnectOptions} {v : Version}
    (hf : (Packet.connect (.ofOptions o)).toBytes = .ok frame) :
    ∃ p, Packet.decodeFrame frame v = .ok p := by
  rw [← Packet.toBytes_asSaid] at hf
  have hsay : (Packet.connect (Connect.ofOptions o).asSaid).Sayable v := Connect.sayable_asSaid _
  have hsound : (Connect.ofOptions o).properties.Sound := by
    unfold Connect.ofOptions
    cases o.version with
    | v311 => exact Properties.sound_empty
    | v5 => exact o.properties.built_toProperties.sound
  exact ⟨_, hsay.decodeFrame_of_toBytes (hsound.inVersion o.version) hf⟩

/-- A frame is accepted, wherever it comes from. -/
theorem Stems.accepted (h : c.Stems op Exchange.Genuine (.send frame)) (hop : c.Careful op)
    (hne : ∀ o now, op ≠ .connect o now) : ∃ p, Packet.decodeFrame frame c.version = .ok p := by
  generalize ha : Action.send frame = a at h
  cases h with
  | quiet h =>
    rw [← ha] at h
    cases h.1
  | packet hp hf =>
    cases ha
    exact hp.accepted hop hf hne
  | @ack kind id reason hgives hid =>
    cases ha
    have hid' : id ≠ 0 := fun hz => hop.spotless (.zero (hz ▸ hgives) (hid hz))
    have hr : kind.permits (reason.inVersion c.version) :=
      by_contra fun hr => hop.spotless (.reason hgives hr)
    exact ⟨_, Retained.decodeFrame_ackBytes hid' hr c.version⟩
  | @retained _ kind _ hr _ he =>
    cases ha
    refine he.accepted ?_ c.version
    rw [hr]
    cases kind <;> decide
  | replay _ he _ hd hv =>
    cases ha
    rw [← hv]
    exact he.replay_accepted hd
  | started | moved | erase => cases ha

theorem sustains_careful (hop : c.Careful op) : c.Sustains op Exchange.Genuine :=
  sustains_genuine hop.built
    (fun _ _ _ hgives => by_contra fun hr => hop.spotless (.reason hgives hr))
    fun id data heq => absurd heq (hop.unrestored id data)

/-- Every frame of an operation is accepted in the version that the client then speaks. -/
theorem accepted_step (hc : c.WF) (hl : c.session.ledger.All Exchange.Genuine)
    (hop : c.Careful op) (hsend : .send frame ∈ (c.step op).actions) :
    ∃ p, Packet.decodeFrame frame (c.step op).client.version = .ok p := by
  rcases stems_of_send hc (sustains_careful hop) hl hsend with ⟨o, now, rfl, hf⟩ | ⟨hne, hv, hstems⟩
  · exact accepted_connect hf
  · rw [hv]
    exact hstems.accepted hop hne

/-- Whatever a client is asked to do, every frame that it writes is accepted in the version of the
connection, unless a slip was made. -/
theorem sent_frames_accepted (options : ClientOptions) {past : List Op}
    (h : (new options).Throughout Careful (past ++ [op]))
    (hsend : .send frame ∈ (((new options).after past).step op).actions) :
    ∃ p, Packet.decodeFrame frame (((new options).after past).step op).client.version = .ok p := by
  obtain ⟨hpast, hop⟩ := throughout_concat_iff.1 h
  exact accepted_step (wf_after (wf_new options) past) (hpast.ledger sustains_careful) hop hsend

/-- A client that published two messages in v5.0 and received one connects in v3.1.1. -/
def connectsAgain : List Op :=
  publishesTwo ++
    [.receive (.publish ⟨"t", some 7, [3], .exactlyOnce, false, false, .empty, .v5⟩),
      .connectionLost 1, .connect { clientId := "c", cleanStart := false, version := .v311 } 2]

/-- A PUBREL and a PUBLISH of a resumed session, both converted to v3.1.1, are accepted in it. -/
theorem sent_frames_accepted_resumed :
    (new {}).Throughout Careful
        (connectsAgain ++ [.receive (.connAck ⟨true, .success, .empty, .v311⟩)]) ∧
      (((new {}).after connectsAgain).step
          (.receive (.connAck ⟨true, .success, .empty, .v311⟩))).actions.filterMap Action.frame? =
        [[98, 2, 0, 1], [58, 6, 0, 1, 116, 0, 2, 2]] ∧
      (∃ p, Packet.decodeFrame [98, 2, 0, 1] .v311 = .ok p) ∧
      ∃ p, Packet.decodeFrame [58, 6, 0, 1, 116, 0, 2, 2] .v311 = .ok p := by
  let op : Op := .receive (.connAck ⟨true, .success, .empty, .v311⟩)
  have htidy : ∀ op' ∈ connectsAgain ++ [op], op'.Tidy := by
    have hreply : (Ack.ofReason 1 .success).id = 1 := rfl
    simp [connectsAgain, publishesTwo, op, Op.Tidy, Packet.id?, hreply, Properties.Built.empty,
      Properties.Built.addUser "k" "v" .empty]
  have hcareful : (new {}).Throughout Careful (connectsAgain ++ [op]) :=
    throughout_of_forall fun op' hop c => careful_of_tidy (htidy op' hop)
  have hframes : (((new {}).after connectsAgain).step op).actions.filterMap Action.frame? =
      [[98, 2, 0, 1], [58, 6, 0, 1, 116, 0, 2, 2]] := by cbv
  have hsend : ∀ frame ∈ [[98, 2, 0, 1], [58, 6, 0, 1, 116, 0, 2, 2]],
      .send frame ∈ (((new {}).after connectsAgain).step op).actions :=
    fun frame hf => Action.mem_frames.1 (hframes ▸ hf)
  have hversion : (((new {}).after connectsAgain).step op).client.version = .v311 := by cbv
  have haccepted := fun frame hf => sent_frames_accepted {} hcareful (hsend frame hf)
  rw [hversion] at haccepted
  exact ⟨hcareful, hframes, haccepted _ List.mem_cons_self,
    haccepted _ (List.mem_cons_of_mem _ List.mem_cons_self)⟩

/-- After each slip a frame is sent in v5.0 that v5.0 does not accept. -/
theorem sent_frames_refused_after_slips :
    let c := (new {}).after
      [.connect { clientId := "c" } 0, .receive (.connAck ⟨false, .success, .empty, .v5⟩)]
    let filter : TopicFilter := ⟨"t", ⟨.atMostOnce, false, false, 3⟩⟩
    c.version = .v5 ∧
      (c.step (.request (.acknowledge .pubAck 0 .success))).actions = [.send [64, 2, 0, 0]] ∧
      Packet.decodeFrame [64, 2, 0, 0] .v5 = .error (.malformed (.zeroIdentifier .pubAck)) ∧
      (c.step (.request (.acknowledge .pubAck 1 .banned))).actions = [.send [64, 3, 0, 1, 138]] ∧
      Packet.decodeFrame [64, 3, 0, 1, 138] .v5 =
        .error (.malformed (.forbiddenReason .pubAck .banned)) ∧
      (c.step (.request (.subscribe [filter] none))).actions =
        [.send [130, 7, 0, 1, 0, 0, 1, 116, 48]] ∧
      Packet.decodeFrame [130, 7, 0, 1, 0, 0, 1, 116, 48] .v5 =
        .error (.malformed .retainHandling) :=
  ⟨by cbv, by cbv, by cbv, by cbv, by cbv, by cbv, by cbv⟩

end Client

end Mqtt
