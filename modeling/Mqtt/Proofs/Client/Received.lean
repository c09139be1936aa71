import Mqtt.Proofs.Client.Replay
import Mqtt.Proofs.Client.WellFormed

/-!
# What a received packet does

For each kind of packet a relation between the client, the packet, the actions and the client
afterwards: `Joins` for CONNACK, `Receives` for PUBLISH, `Continues` for the acknowledgments of a
message, and `Handles` for all packets. `runs_handle` says that every packet is handled as the
relation says; an error does not refuse a packet but ends the connection.
-/

namespace Mqtt

namespace Client

/-- The actions by which an error ends a connection. -/
def failure (e : Error) : List Action := [.emit (.error e), .close]

/-- The actions by which a reaction that ends so ends the connection. -/
def failureOf : Except Error Unit → List Action
  | .ok _ => []
  | .error e => failure e

/-- The client once CONNACK is accepted, before anything is sent. -/
def welcomed (c : Client) (p : ConnAck) : Client :=
  { Reaction.overrides p.properties c with
    phase := .connected p.sessionPresent
    session := { (Reaction.overrides p.properties c).session with endedAt := none } }

/-- The actions that report an accepted CONNACK. -/
def greeting (c : Client) (p : ConnAck) : List Action :=
  .emit (.connAck p.sessionPresent p.reason) ::
    if 0 < (Reaction.overrides p.properties c).keepAlive then
      [.keepAlive (Reaction.overrides p.properties c).keepAlive]
    else []

/-! ## CONNACK -/

/-- What CONNACK does. -/
inductive Joins (c : Client) (p : ConnAck) : List Action → Client → Prop
  | unexpected (hp : c.phase ≠ .connecting) :
      Joins c p (failure (.protocol .unexpectedConnAck)) c
  | refused (hp : c.phase = .connecting) (hr : p.reason.isError) :
      Joins c p
        [.emit (.connAck false p.reason), .emit (.error (.refused p.reason)), .close]
        { c with phase := .disconnected }
  /-- The server has no session, so that of the client is forgotten. -/
  | fresh (hp : c.phase = .connecting) (hr : p.reason.isError = false)
      (hs : p.sessionPresent = false) :
      Joins c p (Reaction.erasures c.session.ledger ++ c.greeting p)
        { c.welcomed p with session := (c.welcomed p).session.purge.2 }
  /-- The session is resumed. -/
  | resumed {r : Except Error Unit} {acts : List Action} {c' : Client}
      (hp : c.phase = .connecting) (hr : p.reason.isError = false) (hs : p.sessionPresent)
      (h : Replays (c.welcomed p) (Reaction.outboundKeys c.session.ledger) r acts c') :
      Joins c p (c.greeting p ++ acts ++ failureOf r) c'

/-! ## PUBLISH -/

/-- What PUBLISH does. -/
inductive Receives (c : Client) (p : Publish) : List Action → Client → Prop
  /-- At QoS 0 a message is only delivered. -/
  | plain (h : p.qos = .atMostOnce ∨ p.id = none) :
      Receives c p [.emit (.publish (.ofPublish p))] c
  /-- Without automatic acknowledgment a message is only delivered, too. -/
  | manual {id : UInt16} (hid : p.id = some id) (hauto : c.options.autoAck = false)
      (hk : p.qos = .exactlyOnce → Key.inbound id ∉ c.session.ledger.keys) :
      Receives c p [.emit (.publish (.ofPublish p))] c
  | once {id : UInt16} (hq : p.qos = .atLeastOnce) (hid : p.id = some id)
      (hauto : c.options.autoAck) :
      Receives c p
        [.emit (.publish (.ofPublish p)), .send (Retained.ackBytes c.version .pubAck id .success)] c
  | tracked {id : UInt16} {l : Ledger} (hq : p.qos = .exactlyOnce) (hid : p.id = some id)
      (hauto : c.options.autoAck) (hne : id ≠ 0)
      (hl : Ledger.Started c.session.ledger (.receipt c.version id .success) l) :
      Receives c p
        [.emit (.publish (.ofPublish p)), .persist (.started (.receipt c.version id .success)),
          .send (Retained.ackBytes c.version .pubRec id .success)]
        { c with session := { c.session with ledger := l } }
  /-- Nothing can be acknowledged under identifier zero. -/
  | zero (hq : p.qos = .exactlyOnce) (hid : p.id = some 0) (hauto : c.options.autoAck)
      (hk : Key.inbound 0 ∉ c.session.ledger.keys) :
      Receives c p (.emit (.publish (.ofPublish p)) :: failure .zeroIdentifier) c
  | repeated {id : UInt16} {e : Exchange} (hq : p.qos = .exactlyOnce) (hid : p.id = some id)
      (he : e ∈ c.session.ledger.toList) (hk : e.key = .inbound id) :
      Receives c p [.send e.frame] c

/-! ## Acknowledgments -/

/-- What an acknowledgment of a message does. -/
inductive Continues (c : Client) (a : Ack) : AckKind → List Action → Client → Prop
  | unsolicited {kind : AckKind} (hkind : kind ≠ .pubRel)
      (hk : Key.outbound a.id ∉ c.session.ledger.keys) : Continues c a kind [] c
  | outOfOrder {kind : AckKind} {e : Exchange} (hkind : kind ≠ .pubRel)
      (he : e ∈ c.session.ledger.toList) (hk : e.key = .outbound a.id)
      (ha : e.awaits ≠ kind.packetType) (hrep : kind = .pubRec → e.awaits ≠ .pubComp) :
      Continues c a kind (failure (.outOfOrder a.id e.awaits kind.packetType)) c
  | settled {kind : AckKind} {e : Exchange} (he : e ∈ c.session.ledger.toList)
      (hk : e.key = .outbound a.id) (ha : e.awaits = kind.packetType)
      (hr : kind = .pubRec → a.reason.isError) :
      Continues c a kind
        [.persist (.erase (.outbound a.id)), .emit (.ack kind a.id a.reason)]
        { c with session := (c.session.complete (.outbound a.id)).2 }
  | released {e : Exchange} {l : Ledger} (hk : e.key = .outbound a.id) (ha : e.awaits = .pubRec)
      (hr : a.reason.isError = false) (hauto : c.options.autoAck)
      (hl : Ledger.Moved c.session.ledger e (e.released c.version .success) l) :
      Continues c a .pubRec
        [.persist (.moved (e.released c.version .success)),
          .send (Retained.ackBytes c.version .pubRel a.id .success),
          .emit (.ack .pubRec a.id a.reason)]
        { c with session := { c.session with ledger := l } }
  /-- The release of the message is left to the application. -/
  | noted {e : Exchange} (he : e ∈ c.session.ledger.toList) (hk : e.key = .outbound a.id)
      (ha : e.awaits = .pubRec) (hr : a.reason.isError = false)
      (hauto : c.options.autoAck = false) :
      Continues c a .pubRec [.emit (.ack .pubRec a.id a.reason)] c
  | releasedAgain {e : Exchange} (he : e ∈ c.session.ledger.toList) (hk : e.key = .outbound a.id)
      (ha : e.awaits = .pubComp) : Continues c a .pubRec [.send e.frame] c
  | ended (hauto : c.options.autoAck) (hk : Key.inbound a.id ∈ c.session.ledger.keys) :
      Continues c a .pubRel
        [.persist (.erase (.inbound a.id)),
          .send (Retained.ackBytes c.version .pubComp a.id .success),
          .emit (.ack .pubRel a.id a.reason)]
        { c with session := (c.session.complete (.inbound a.id)).2 }
  /-- The exchange has ended before. -/
  | endedAgain (hauto : c.options.autoAck) (hk : Key.inbound a.id ∉ c.session.ledger.keys) :
      Continues c a .pubRel
        [.send (Retained.ackBytes c.version .pubComp a.id .packetIdentifierNotFound),
          .emit (.ack .pubRel a.id a.reason)] c
  /-- The end of the exchange is left to the application. -/
  | endNoted (hauto : c.options.autoAck = false) :
      Continues c a .pubRel [.emit (.ack .pubRel a.id a.reason)] c

/-! ## All packets -/

/-- What a packet does. -/
inductive Handles (c : Client) : Packet → List Action → Client → Prop
  | connAck {p : ConnAck} {acts : List Action} {c' : Client} (h : Joins c p acts c') :
      Handles c (.connAck p) acts c'
  | publish {p : Publish} {acts : List Action} {c' : Client} (h : Receives c p acts c') :
      Handles c (.publish p) acts c'
  | ack {kind : AckKind} {a : Ack} {acts : List Action} {c' : Client}
      (h : Continues c a kind acts c') : Handles c (.ack kind a) acts c'
  | subAck {p : FilterAck} (h : p.id ∈ c.session.subscribes) :
      Handles c (.subAck p) [.emit (.subAck p.id p.reasons)]
        { c with session := (c.session.completeSubscribe p.id).2 }
  | subAckUnknown {p : FilterAck} (h : p.id ∉ c.session.subscribes) : Handles c (.subAck p) [] c
  | unsubAck {p : FilterAck} (h : p.id ∈ c.session.unsubscribes) :
      Handles c (.unsubAck p) [.emit (.unsubAck p.id p.reasons)]
        { c with session := (c.session.completeUnsubscribe p.id).2 }
  | unsubAckUnknown {p : FilterAck} (h : p.id ∉ c.session.unsubscribes) :
      Handles c (.unsubAck p) [] c
  | pingResp : Handles c .pingResp [] c
  | closed {p : Disconnect} :
      Handles c (.disconnect p)
        ((if p.reason.isError then [.emit (.error (.connection (.closedByServer p.reason)))]
          else []) ++ [.close]) c
  /-- A packet that only clients send. -/
  | clientOnly {p : Packet}
      (hp : p.packetType ∈ [PacketType.connect, .subscribe, .unsubscribe, .pingReq]) :
      Handles c p (failure (.protocol (.clientOnly p.packetType))) c

/-! ## The relations hold -/

namespace Reaction

variable {c c' : Client} {acts : List Action}

theorem runs_guarded {x : Reaction Unit} (r : Except Error Unit) (acts : List Action)
    (h : x.Runs c r acts c') : (guarded x).Runs c (.ok ()) (acts ++ failureOf r) c' := by
  cases r with
  | ok u => exact h.guarded.cast (List.append_nil acts).symm rfl
  | error e => exact h.guarded_error

theorem overrides_session (p : Properties) (c : Client) :
    (overrides p c).session = { c.session with expiry := (overrides p c).session.expiry } := by
  unfold overrides
  split <;> rfl

theorem welcomed_session (c : Client) (p : ConnAck) :
    (c.welcomed p).session = { c.session with
      expiry := (overrides p.properties c).session.expiry, endedAt := none } := by
  rw [welcomed, overrides_session]

theorem wf_welcomed (hc : c.session.WF) (p : ConnAck) : (c.welcomed p).session.WF := by
  rw [welcomed_session]
  exact hc.of_eq rfl rfl rfl rfl

/-- What follows once the session of an accepted connection is settled. -/
def greet (p : ConnAck) : Reaction Unit := do
  update fun c => { c with
    phase := .connected p.sessionPresent
    session := { c.session with endedAt := none } }
  emit (.connAck p.sessionPresent p.reason)
  let seconds := (← client).keepAlive
  if 0 < seconds then perform (.keepAlive seconds)
  if p.sessionPresent then resumeAll

theorem accepted_eq (p : ConnAck) :
    accepted p = (do
      update (overrides p.properties)
      if !p.sessionPresent && !(← session).isEmpty then purge
      greet p) :=
  rfl

theorem runs_greet {p : ConnAck} {d : Client} {r : Except Error Unit}
    (hk : d.keepAlive = (overrides p.properties c).keepAlive)
    (h : (if p.sessionPresent then resumeAll else pure ()).Runs
      { d with phase := .connected p.sessionPresent, session := { d.session with endedAt := none } }
      r acts c') :
    (greet p).Runs d r (c.greeting p ++ acts) c' := by
  refine (runs_update _).bind ((runs_emit _).bind (runs_client.bind ?_))
  by_cases hpos : 0 < d.keepAlive
  · simp only [hpos, ← hk, ↓reduceIte]
    exact (runs_perform _).bind h
  · simp only [hpos, ← hk, ↓reduceIte]
    exact h

theorem runs_accepted_resumed (hc : c.session.WF) {p : ConnAck} (hs : p.sessionPresent) :
    ∃ r acts c', (accepted p).Runs c r (c.greeting p ++ acts) c' ∧
      Replays (c.welcomed p) (outboundKeys c.session.ledger) r acts c' := by
  obtain ⟨r, acts, c', hrun, h⟩ := runs_resumeAll (wf_welcomed hc p)
  rw [welcomed_session] at h
  refine ⟨r, acts, c', ?_, h⟩
  rw [accepted_eq]
  refine (runs_update _).bind (runs_session.bind ?_)
  dsimp only
  split
  · rename_i hpurge
    simp [hs] at hpurge
  · refine runs_greet rfl ?_
    rw [if_pos hs]
    exact hrun

theorem runs_accepted_fresh (hc : c.WF) (hp : c.phase = .connecting) {p : ConnAck}
    (hs : p.sessionPresent = false) :
    (accepted p).Runs c (.ok ()) (erasures c.session.ledger ++ c.greeting p)
      { c.welcomed p with session := (c.welcomed p).session.purge.2 } := by
  have hl : (overrides p.properties c).session.ledger = c.session.ledger := by
    rw [overrides_session]
  have hdone : ∀ d : Client,
      (if p.sessionPresent then resumeAll else pure ()).Runs d (.ok ()) [] d := fun d => by
    rw [if_neg (by simp [hs])]
    exact runs_pure ()
  rw [accepted_eq]
  refine (runs_update _).bind (runs_session.bind ?_)
  dsimp only
  split
  · have hgreet := runs_greet (c := c) (p := p)
      (d := { overrides p.properties c with session := (overrides p.properties c).session.purge.2 })
      rfl (hdone _)
    exact (runs_purge.bind hgreet).cast (by rw [hl, List.append_nil]; rfl) rfl
  · -- nothing is purged, but there is nothing to purge either
    rename_i hempty
    have hidle : c.session.Idle := hc.idle (by rw [isConnected, hp])
    have hempty : (overrides p.properties c).session.isEmpty := by simpa [hs] using hempty
    have hwf : (overrides p.properties c).session.WF := by
      rw [overrides_session]
      exact hc.session.of_eq rfl rfl rfl rfl
    have hidle' : (overrides p.properties c).session.Idle := by
      rw [overrides_session]
      exact ⟨hidle.1, hidle.2⟩
    obtain ⟨hkeys, hpurge⟩ := hwf.purge_of_isEmpty hidle' hempty
    refine (runs_greet (c := c) rfl (hdone _)).cast ?_ ?_
    · rw [erasures, ← hl, hkeys, List.append_nil]
      rfl
    · exact congrArg (fun s => { overrides p.properties c with
        phase := .connected p.sessionPresent, session := s }) hpurge.symm

theorem runs_accepted (hc : c.WF) (hp : c.phase = .connecting) {p : ConnAck}
    (hr : p.reason.isError = false) :
    ∃ r acts c', (accepted p).Runs c r acts c' ∧ Joins c p (acts ++ failureOf r) c' := by
  cases hs : p.sessionPresent with
  | true =>
    obtain ⟨r, acts, c', hrun, h⟩ := runs_accepted_resumed hc.session hs
    exact ⟨r, _, c', hrun, .resumed hp hr hs h⟩
  | false =>
    refine ⟨_, _, _, runs_accepted_fresh hc hp hs, ?_⟩
    rw [failureOf, List.append_nil]
    exact .fresh hp hr hs

theorem runs_onConnAck (hc : c.WF) (p : ConnAck) :
    ∃ acts c', (guarded (onConnAck p)).Runs c (.ok ()) acts c' ∧ Joins c p acts c' := by
  unfold onConnAck
  by_cases hp : c.phase = .connecting
  · cases hr : p.reason.isError with
    | true =>
      refine ⟨_, _, (runs_client.bind ?_).guarded, .refused hp hr⟩
      simp only [hp, ne_eq, not_true_eq_false, ↓reduceIte]
      exact (runs_update _).bind ((runs_emit _).bind ((runs_emit _).bind (runs_perform _)))
    | false =>
      obtain ⟨r, acts, c', hrun, h⟩ := runs_accepted hc hp hr
      refine ⟨_, c', runs_guarded r acts (runs_client.bind ?_), h⟩
      simp only [hp, ne_eq, not_true_eq_false, ↓reduceIte]
      exact hrun
  · refine ⟨_, c, runs_guarded (.error _) [] (runs_client.bind ?_), .unexpected hp⟩
    simp only [ne_eq, hp, not_false_eq_true, ↓reduceIte]
    exact (runs_throw _).bind_error

variable {message : Option Message} {step : Delivery.Step} {steps : List Delivery.Step}

theorem runs_takeAll_nil : (takeAll message []).Runs c (.ok ()) [] c := runs_pure ()

theorem runs_takeAll_cons {r : Except Error Unit} {c'' : Client} {acts' : List Action}
    (h : (take message step).Runs c (.ok ()) acts c')
    (hs : (takeAll message steps).Runs c' r acts' c'') :
    (takeAll message (step :: steps)).Runs c r (acts ++ acts') c'' :=
  h.bind hs

theorem runs_takeAll_error {e : Error} (h : (take message step).Runs c (.error e) acts c') :
    (takeAll message (step :: steps)).Runs c (.error e) acts c' :=
  h.bind_error

/-- One step by itself. -/
theorem runs_takeAll_one {r : Except Error Unit} (h : (take message step).Runs c r acts c') :
    (takeAll message [step]).Runs c r acts c' := by
  cases r with
  | ok u => exact (runs_takeAll_cons h runs_takeAll_nil).cast (List.append_nil acts) rfl
  | error e => exact runs_takeAll_error h

/-- A PUBLISH runs as the steps that its rule asks for. -/
theorem runs_onPublish_of_steps {p : Publish} {r : Except Error Unit} (steps : List Delivery.Step)
    (hsteps : Delivery.onPublish p.id p.qos (repeated c.session.ledger p) c.options.autoAck = steps)
    (h : (takeAll (some (.ofPublish p)) steps).Runs c r acts c') :
    (guarded (onPublish p)).Runs c (.ok ()) (acts ++ failureOf r) c' := by
  subst hsteps
  exact runs_guarded r acts (runs_session.bind (runs_client.bind h))

theorem runs_deliver (p : Publish) (id : Option UInt16) :
    (take (some (.ofPublish p)) (.deliver id)).Runs c (.ok ())
      [.emit (.publish (.ofPublish p))] c :=
  runs_emit _

theorem runs_onPublish_exactlyOnce (hc : c.session.WF) {p : Publish} {id : UInt16}
    (hq : p.qos = .exactlyOnce) (hid : p.id = some id) :
    ∃ acts c', (guarded (onPublish p)).Runs c (.ok ()) acts c' ∧ Receives c p acts c' := by
  have hrepeated : repeated c.session.ledger p =
      (c.session.ledger.get? (.inbound id)).map (·.awaits) := by
    rw [repeated, hq, hid]
    rfl
  rcases hget : c.session.ledger.get? (.inbound id) with _ | e
  · have hk := hc.ledger.get?_eq_none_iff.1 hget
    cases hauto : c.options.autoAck with
    | true =>
      have hsteps : Delivery.onPublish p.id p.qos (repeated c.session.ledger p) c.options.autoAck =
          [.deliver (some id), .sendPubRec id] := by
        rw [hrepeated, hget, hq, hid, hauto]
        rfl
      by_cases hne : id = 0
      · subst hne
        have hrun : (takeAll (some (.ofPublish p)) [.deliver (some 0), .sendPubRec 0]).Runs c
            (.error .zeroIdentifier) [.emit (.publish (.ofPublish p))] c :=
          runs_takeAll_cons (runs_deliver p _) (runs_takeAll_error (runs_trackInbound_zero _))
        exact ⟨_, c, runs_onPublish_of_steps _ hsteps hrun, .zero hq hid hauto hk⟩
      · obtain ⟨l, hl, htrack⟩ := runs_trackInbound hc hne hk .success
        have hrun : (takeAll (some (.ofPublish p)) [.deliver (some id), .sendPubRec id]).Runs c
            (.ok ()) _ _ :=
          runs_takeAll_cons (runs_deliver p _) (runs_takeAll_one htrack)
        exact ⟨_, _, runs_onPublish_of_steps _ hsteps hrun, .tracked hq hid hauto hne hl⟩
    | false =>
      have hsteps : Delivery.onPublish p.id p.qos (repeated c.session.ledger p) c.options.autoAck =
          [.deliver (some id)] := by
        rw [hrepeated, hget, hq, hid, hauto]
        rfl
      have hrun := runs_takeAll_one (runs_deliver (c := c) p (some id))
      exact ⟨_, c, runs_onPublish_of_steps _ hsteps hrun, .manual hid hauto fun _ => hk⟩
  · obtain ⟨he, hk⟩ := hc.ledger.get?_eq_some_iff.1 hget
    have hsteps : Delivery.onPublish p.id p.qos (repeated c.session.ledger p) c.options.autoAck =
        [.resendPubRec id] := by
      rw [hrepeated, hget, hq, hid]
      rfl
    have hrun : (takeAll (some (.ofPublish p)) [.resendPubRec id]).Runs c (.ok ())
        [.send e.frame] c :=
      runs_takeAll_one (runs_resend hc he hk)
    exact ⟨_, c, runs_onPublish_of_steps _ hsteps hrun, .repeated hq hid he hk⟩

theorem runs_onPublish (hc : c.session.WF) (p : Publish) :
    ∃ acts c', (guarded (onPublish p)).Runs c (.ok ()) acts c' ∧ Receives c p acts c' := by
  have hdeliver : ∀ id, (takeAll (some (.ofPublish p)) [.deliver id]).Runs c (.ok ())
      [.emit (.publish (.ofPublish p))] c := fun id => runs_takeAll_one (runs_deliver p id)
  cases hid : p.id with
  | none =>
    have hsteps : Delivery.onPublish p.id p.qos (repeated c.session.ledger p) c.options.autoAck =
        [.deliver none] := by
      rw [hid]
      cases p.qos <;> rfl
    exact ⟨_, c, runs_onPublish_of_steps _ hsteps (hdeliver none), .plain (.inr hid)⟩
  | some id =>
    cases hq : p.qos with
    | atMostOnce =>
      have hsteps : Delivery.onPublish p.id p.qos (repeated c.session.ledger p) c.options.autoAck =
          [.deliver none] := by
        rw [hq]
        rfl
      exact ⟨_, c, runs_onPublish_of_steps _ hsteps (hdeliver none), .plain (.inl hq)⟩
    | atLeastOnce =>
      cases hauto : c.options.autoAck with
      | true =>
        have hsteps : Delivery.onPublish p.id p.qos (repeated c.session.ledger p)
            c.options.autoAck = [.deliver (some id), .sendPubAck id] := by
          rw [hq, hid, hauto]
          rfl
        have hrun : (takeAll (some (.ofPublish p)) [.deliver (some id), .sendPubAck id]).Runs c
            (.ok ()) _ c :=
          runs_takeAll_cons (runs_deliver p _) (runs_takeAll_one (runs_sendAck _ _ _))
        exact ⟨_, c, runs_onPublish_of_steps _ hsteps hrun, .once hq hid hauto⟩
      | false =>
        have hsteps : Delivery.onPublish p.id p.qos (repeated c.session.ledger p)
            c.options.autoAck = [.deliver (some id)] := by
          rw [hq, hid, hauto]
          rfl
        exact ⟨_, c, runs_onPublish_of_steps _ hsteps (hdeliver (some id)),
          .manual hid hauto (by simp [hq])⟩
    | exactlyOnce => exact runs_onPublish_exactlyOnce hc hq hid

/-! ### Acknowledgments -/

section Reply

variable {kind : AckKind} {a : Ack} {rule : Option PacketType → List Delivery.Step} {e : Exchange}

theorem runs_onReply (steps : List Delivery.Step)
    (hsteps : rule (c.session.ledger.awaits? (.outbound a.id)) = steps)
    (h : (takeAll none steps).Runs c (.ok ()) acts c') :
    (guarded (onReply kind a rule)).Runs c (.ok ())
      (acts ++ if c.session.ledger.awaits? (.outbound a.id) = some kind.packetType then
        [.emit (.ack kind a.id a.reason)] else []) c' := by
  subst hsteps
  refine (runs_session.bind (h.bind ?_)).guarded
  split
  · exact runs_emit _
  · exact runs_pure ()

theorem awaits?_eq_some (hc : c.session.WF) (he : e ∈ c.session.ledger.toList)
    (hk : e.key = .outbound a.id) : c.session.ledger.awaits? (.outbound a.id) = some e.awaits := by
  rw [Ledger.awaits?, hc.ledger.get?_eq_some_iff.2 ⟨he, hk⟩, Option.map_some]

/-- What waits for an acknowledgment ends with it. -/
theorem runs_onReply_settled (hc : c.session.WF) (he : e ∈ c.session.ledger.toList)
    (hk : e.key = .outbound a.id) (ha : e.awaits = kind.packetType)
    (hr : kind = .pubRec → a.reason.isError)
    (hsteps : rule (some kind.packetType) = [.complete a.id .outbound a.reason]) :
    ∃ acts c', (guarded (onReply kind a rule)).Runs c (.ok ()) acts c' ∧
      Continues c a kind acts c' := by
  have hawaits : c.session.ledger.awaits? (.outbound a.id) = some kind.packetType := by
    rw [awaits?_eq_some hc he hk, ha]
  have hmem : Key.outbound a.id ∈ c.session.ledger.keys := Ledger.mem_keys.2 ⟨e, he, hk⟩
  have hrun : (takeAll none [.complete a.id .outbound a.reason]).Runs c (.ok ())
      [.persist (.erase (.outbound a.id))]
      { c with session := (c.session.complete (.outbound a.id)).2 } :=
    runs_takeAll_one (runs_complete hc hmem)
  refine ⟨_, _, (runs_onReply _ (by rw [hawaits, hsteps]) hrun).cast ?_ rfl, .settled he hk ha hr⟩
  rw [if_pos hawaits]
  rfl

/-- An acknowledgment that nothing waits for is ignored; one of another type than is waited for is
an error, unless it is a repetition. -/
theorem runs_onReply_cases (hc : c.session.WF) (hkind : kind ≠ .pubRel)
    (hnone : rule none = [.unsolicited a.id kind.packetType])
    (hother : ∀ t, t ≠ kind.packetType → (kind = .pubRec → t ≠ .pubComp) →
      rule (some t) = [.outOfOrder a.id t kind.packetType])
    (hsome : ∀ e ∈ c.session.ledger.toList, e.key = .outbound a.id →
      e.awaits = kind.packetType ∨ kind = .pubRec ∧ e.awaits = .pubComp →
      ∃ acts c', (guarded (onReply kind a rule)).Runs c (.ok ()) acts c' ∧
        Continues c a kind acts c') :
    ∃ acts c', (guarded (onReply kind a rule)).Runs c (.ok ()) acts c' ∧
      Continues c a kind acts c' := by
  rcases hget : c.session.ledger.get? (.outbound a.id) with _ | e
  · have hawaits : c.session.ledger.awaits? (.outbound a.id) = none := by
      rw [Ledger.awaits?, hget, Option.map_none]
    refine ⟨_, c, (runs_onReply [.unsolicited a.id kind.packetType] (by rw [hawaits, hnone])
      (runs_takeAll_one (runs_pure ()))).cast ?_ rfl,
      .unsolicited hkind (hc.ledger.get?_eq_none_iff.1 hget)⟩
    rw [hawaits]
    rfl
  obtain ⟨he, hk⟩ := hc.ledger.get?_eq_some_iff.1 hget
  by_cases ha : e.awaits = kind.packetType ∨ kind = .pubRec ∧ e.awaits = .pubComp
  · exact hsome e he hk ha
  obtain ⟨ha, hrep⟩ := not_or.1 ha
  have hrep : kind = .pubRec → e.awaits ≠ .pubComp := fun h h' => hrep ⟨h, h'⟩
  have hsteps : rule (c.session.ledger.awaits? (.outbound a.id)) =
      [.outOfOrder a.id e.awaits kind.packetType] := by
    rw [awaits?_eq_some hc he hk, hother _ ha hrep]
  refine ⟨_, c, runs_guarded (.error _) [] (runs_session.bind (Runs.bind_error ?_)),
    .outOfOrder hkind he hk ha hrep⟩
  rw [hsteps]
  exact runs_takeAll_error (runs_throw _)

end Reply

/-- What is only read stands outside as well as inside. -/
theorem Runs.guarded_client {f : Client → Reaction Unit} {r : Except Error Unit}
    (h : (Reaction.guarded (f c)).Runs c r acts c') :
    (Reaction.guarded (client >>= f)).Runs c r acts c' :=
  h

theorem runs_onPubRec (hc : c.session.WF) (a : Ack) :
    ∃ acts c', (guarded (onAck .pubRec a)).Runs c (.ok ()) acts c' ∧
      Continues c a .pubRec acts c' := by
  suffices h : ∃ acts c', (guarded (onReply .pubRec a
      (Delivery.onPubRec a.id a.reason · c.options.autoAck))).Runs c (.ok ()) acts c' ∧
      Continues c a .pubRec acts c' by
    obtain ⟨acts, c', hrun, h⟩ := h
    exact ⟨acts, c', hrun.guarded_client, h⟩
  refine runs_onReply_cases hc (by decide) rfl (fun t ht ht' => ?_) fun e he hk ha => ?_
  · cases t <;> first | rfl | exact absurd rfl ht | exact absurd rfl (ht' rfl)
  have hawaits := awaits?_eq_some hc he hk
  rcases ha with ha | ⟨-, ha⟩
  · rw [ha] at hawaits
    cases hr : a.reason.isError with
    | true =>
      refine runs_onReply_settled hc he hk ha (fun _ => hr) ?_
      simp [Delivery.onPubRec, AckKind.packetType, hr]
    | false =>
      cases hauto : c.options.autoAck with
      | true =>
        obtain ⟨l, hl, hrelease⟩ := runs_releaseOutbound hc he hk ha .success
        have hsteps : Delivery.onPubRec a.id a.reason
            (c.session.ledger.awaits? (.outbound a.id)) true = [.sendPubRel a.id] := by
          simp [Delivery.onPubRec, AckKind.packetType, hawaits, hr]
        have hrun : (takeAll none [.sendPubRel a.id]).Runs c (.ok ()) _ _ :=
          runs_takeAll_one hrelease
        refine ⟨_, _, (runs_onReply _ hsteps hrun).cast ?_ rfl, .released hk ha hr hauto hl⟩
        rw [if_pos hawaits]
        rfl
      | false =>
        have hsteps : Delivery.onPubRec a.id a.reason
            (c.session.ledger.awaits? (.outbound a.id)) false = [] := by
          simp [Delivery.onPubRec, AckKind.packetType, hawaits, hr]
        refine ⟨_, _, (runs_onReply _ hsteps runs_takeAll_nil).cast ?_ rfl,
          .noted he hk ha hr hauto⟩
        rw [if_pos hawaits]
        rfl
  · rw [ha] at hawaits
    have hsteps : Delivery.onPubRec a.id a.reason (c.session.ledger.awaits? (.outbound a.id))
        c.options.autoAck = [.resendPubRel a.id] := by
      rw [hawaits]
      rfl
    have hrun : (takeAll none [.resendPubRel a.id]).Runs c (.ok ()) [.send e.frame] c :=
      runs_takeAll_one (runs_resend hc he hk)
    refine ⟨_, _, (runs_onReply _ hsteps hrun).cast ?_ rfl, .releasedAgain he hk ha⟩
    rw [hawaits]
    rfl

theorem runs_onPubRel_of_steps {a : Ack} (steps : List Delivery.Step)
    (hsteps : Delivery.onPubRel a.id (c.session.ledger.awaits? (.inbound a.id)) c.options.autoAck =
      steps) (h : (takeAll none steps).Runs c (.ok ()) acts c') :
    (guarded (onAck .pubRel a)).Runs c (.ok ())
      (acts ++ [.emit (.ack .pubRel a.id a.reason)]) c' := by
  subst hsteps
  exact (runs_session.bind (runs_client.bind (h.bind (runs_emit _)))).guarded

theorem runs_onPubRel (hc : c.session.WF) (a : Ack) :
    ∃ acts c', (guarded (onAck .pubRel a)).Runs c (.ok ()) acts c' ∧
      Continues c a .pubRel acts c' := by
  cases hauto : c.options.autoAck with
  | false =>
    have hsteps : Delivery.onPubRel a.id (c.session.ledger.awaits? (.inbound a.id))
        c.options.autoAck = [] := by
      rw [hauto]
      rfl
    exact ⟨_, c, runs_onPubRel_of_steps _ hsteps runs_takeAll_nil, .endNoted hauto⟩
  | true =>
    rcases hget : c.session.ledger.get? (.inbound a.id) with _ | e
    · have hsteps : Delivery.onPubRel a.id (c.session.ledger.awaits? (.inbound a.id))
          c.options.autoAck = [.sendPubComp a.id .packetIdentifierNotFound] := by
        rw [hauto, Ledger.awaits?, hget]
        rfl
      have hrun : (takeAll none [.sendPubComp a.id .packetIdentifierNotFound]).Runs c
          (.ok ()) _ c :=
        runs_takeAll_one (runs_sendAck _ _ _)
      exact ⟨_, c, runs_onPubRel_of_steps _ hsteps hrun,
        .endedAgain hauto (hc.ledger.get?_eq_none_iff.1 hget)⟩
    · obtain ⟨he, hk⟩ := hc.ledger.get?_eq_some_iff.1 hget
      have hawaits := (Exchange.awaits_inbound (hc.checks e he) (Exchange.key_eq_inbound.1 hk).2).1
      have hmem : Key.inbound a.id ∈ c.session.ledger.keys := Ledger.mem_keys.2 ⟨e, he, hk⟩
      have hsteps : Delivery.onPubRel a.id (c.session.ledger.awaits? (.inbound a.id))
          c.options.autoAck =
          [.complete a.id .inbound .success, .sendPubComp a.id .success] := by
        rw [hauto, Ledger.awaits?, hget, Option.map_some, hawaits]
        rfl
      have hrun : (takeAll none
          [.complete a.id .inbound .success, .sendPubComp a.id .success]).Runs c (.ok ()) _ _ :=
        runs_takeAll_cons (runs_complete hc hmem) (runs_takeAll_one (runs_sendAck _ _ _))
      exact ⟨_, _, runs_onPubRel_of_steps _ hsteps hrun, .ended hauto hmem⟩

theorem runs_onAck (hc : c.session.WF) (kind : AckKind) (a : Ack) :
    ∃ acts c', (guarded (onAck kind a)).Runs c (.ok ()) acts c' ∧ Continues c a kind acts c' := by
  cases kind with
  | pubAck =>
    refine runs_onReply_cases hc (by decide) rfl (fun t ht _ => ?_) fun e he hk ha => ?_
    · cases t <;> first | rfl | exact absurd rfl ht
    · have ha := ha.resolve_right fun h => by cases h.1
      exact runs_onReply_settled hc he hk ha (fun h => by cases h) rfl
  | pubRec => exact runs_onPubRec hc a
  | pubComp =>
    refine runs_onReply_cases hc (by decide) rfl (fun t ht _ => ?_) fun e he hk ha => ?_
    · cases t <;> first | rfl | exact absurd rfl ht
    · have ha := ha.resolve_right fun h => by cases h.1
      exact runs_onReply_settled hc he hk ha (fun h => by cases h) rfl
  | pubRel => exact runs_onPubRel hc a

/-! ### All packets -/

/-- The answer of a request is reported if there is such a request. -/
theorem runs_answered {α : Type} (f : Session → Option α × Session) (v : Event) :
    (do
      let (done, s) := f (← session)
      updateSession fun _ => s
      if done.isSome then emit v : Reaction Unit).Runs c (.ok ())
      (if (f c.session).1.isSome then [.emit v] else []) { c with session := (f c.session).2 } := by
  have hreport : ∀ d : Client, (if (f c.session).1.isSome then emit v else pure ()).Runs d (.ok ())
      (if (f c.session).1.isSome then [.emit v] else []) d := fun d => by
    split
    · exact runs_emit v
    · exact runs_pure ()
  exact runs_session.bind ((runs_updateSession _).bind (hreport _))

theorem runs_onSubAck (p : FilterAck) :
    ∃ acts c', (onSubAck p).Runs c (.ok ()) acts c' ∧ Handles c (.subAck p) acts c' := by
  refine ⟨_, _, runs_answered (·.completeSubscribe p.id) (.subAck p.id p.reasons), ?_⟩
  by_cases h : p.id ∈ c.session.subscribes
  · rw [if_pos (Session.isSome_completeSubscribe.2 h)]
    exact .subAck h
  · simp only [Session.completeSubscribe_of_not_mem h]
    exact .subAckUnknown h

theorem runs_onUnsubAck (p : FilterAck) :
    ∃ acts c', (onUnsubAck p).Runs c (.ok ()) acts c' ∧ Handles c (.unsubAck p) acts c' := by
  refine ⟨_, _, runs_answered (·.completeUnsubscribe p.id) (.unsubAck p.id p.reasons), ?_⟩
  by_cases h : p.id ∈ c.session.unsubscribes
  · rw [if_pos (Session.isSome_completeUnsubscribe.2 h)]
    exact .unsubAck h
  · simp only [Session.completeUnsubscribe_of_not_mem h]
    exact .unsubAckUnknown h

theorem runs_onDisconnect (p : Disconnect) :
    (onDisconnect p).Runs c (.ok ())
      ((if p.reason.isError then
        [.emit (.error (.connection (.closedByServer p.reason)))] else []) ++ [.close]) c := by
  unfold onDisconnect
  dsimp only
  split
  · exact (runs_emit _).bind (runs_perform _)
  · exact runs_perform _

theorem runs_clientOnly {p : Packet}
    (hp : p.packetType ∈ [PacketType.connect, .subscribe, .unsubscribe, .pingReq]) :
    ∃ acts c', (guarded (throw (.protocol (.clientOnly p.packetType)))).Runs c (.ok ()) acts c' ∧
      Handles c p acts c' :=
  ⟨_, c, runs_guarded (.error _) [] (runs_throw _), .clientOnly hp⟩

/-- Every packet is handled. -/
theorem runs_handle (hc : c.WF) (p : Packet) :
    ∃ acts c', (handle p).Runs c (.ok ()) acts c' ∧ Handles c p acts c' := by
  cases p with
  | connAck p =>
    obtain ⟨acts, c', hrun, h⟩ := runs_onConnAck hc p
    exact ⟨acts, c', hrun, .connAck h⟩
  | publish p =>
    obtain ⟨acts, c', hrun, h⟩ := runs_onPublish hc.session p
    exact ⟨acts, c', hrun, .publish h⟩
  | ack kind a =>
    obtain ⟨acts, c', hrun, h⟩ := runs_onAck hc.session kind a
    exact ⟨acts, c', hrun, .ack h⟩
  | subAck p => exact runs_onSubAck p
  | unsubAck p => exact runs_onUnsubAck p
  | pingResp => exact ⟨_, c, runs_pure (), .pingResp⟩
  | disconnect p => exact ⟨_, c, runs_onDisconnect p, .closed⟩
  | connect p => exact runs_clientOnly (by simp [Packet.packetType])
  | subscribe p => exact runs_clientOnly (by simp [Packet.packetType])
  | unsubscribe p => exact runs_clientOnly (by simp [Packet.packetType])
  | pingReq => exact runs_clientOnly (by simp [Packet.packetType])

end Reaction

end Client

end Mqtt
