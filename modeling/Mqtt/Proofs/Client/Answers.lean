import Mathlib
import Mqtt.Proofs.Client.Edits

/-!
# Acknowledging by hand

Without automatic acknowledgment the application is told what arrived, and acknowledges it with
requests. `Client.answer` is the request that an event calls for, and `Client.attend` what an
application does that makes these requests at once: it takes in each packet and then answers its
events.

Either way a packet does the same, but for the moment at which the application is told of it
(`Divides`, with one lemma for each kind of packet). So whole runs differ in nothing else:
`Client.attend_alike`.
-/

namespace Mqtt

/-- A message or an acknowledgment of one, under an identifier that is not zero. -/
def Packet.Exchanged : Packet → Prop
  | .publish p => p.id ≠ some 0
  | .ack _ a => a.id ≠ 0
  | _ => False

namespace Client

/-! ## Answers -/

/-- The client with automatic acknowledgment or without. -/
def withAutoAck (c : Client) (autoAck : Bool) : Client :=
  { c with options := { c.options with autoAck } }

/-- The acknowledgment that an event calls for. -/
def answer (c : Client) : Event → Option Request
  | .publish m =>
    match m.qos, m.id with
    | .atLeastOnce, some id => some (.acknowledge .pubAck id .success)
    | .exactlyOnce, some id => some (.acknowledge .pubRec id .success)
    | _, _ => none
  | .ack .pubRec id reason =>
    if reason.isError then none else some (.acknowledge .pubRel id .success)
  | .ack .pubRel id _ =>
    some (.acknowledge .pubComp id
      (if c.session.ledger.contains (.inbound id) then .success else .packetIdentifierNotFound))
  | _ => none

/-- The requests that the events among actions call for. -/
def answers (c : Client) (acts : List Action) : List Op :=
  acts.filterMap fun a => (a.event?.bind c.answer).map .request

/-- Take in a packet and answer its events at once. -/
def attendTo (c : Client) (p : Packet) : List Op :=
  .receive p :: (c.step (.receive p)).client.answers (c.step (.receive p)).actions

/-- Take in packets, and answer the events of each before the next one. -/
def attend (c : Client) : List Packet → List Op
  | [] => []
  | p :: ps => c.attendTo p ++ (c.after (c.attendTo p)).attend ps

/-- The same actions and the same events, each in the same order; what may differ is where the
application is told among the other actions. -/
structure Reordered (acts acts' : List Action) : Prop where
  done : acts.filter (·.event?.isNone) = acts'.filter (·.event?.isNone)
  told : acts.filterMap Action.event? = acts'.filterMap Action.event?

variable {c c' : Client} {acts acts' acts'' : List Action}

theorem Reordered.refl (acts : List Action) : Reordered acts acts := ⟨rfl, rfl⟩

theorem Reordered.append {more more' : List Action} (h : Reordered acts acts')
    (hmore : Reordered more more') : Reordered (acts ++ more) (acts' ++ more') where
  done := by rw [List.filter_append, List.filter_append, h.done, hmore.done]
  told := by rw [List.filterMap_append, List.filterMap_append, h.told, hmore.told]

/-- The application may be told first or last. -/
theorem reordered_emit (v : Event) (h : acts.filterMap Action.event? = []) :
    Reordered (acts ++ [.emit v]) (.emit v :: acts) where
  done := by simp [Action.event?]
  told := by simp [h, Action.event?]

/-! ## What a packet does either way -/

open Reaction

/-- What a packet does with automatic acknowledgment, and without it once it is answered. -/
inductive Divides (c : Client) (p : Packet) : List Action → Session → Prop
  /-- Nothing is to be answered. -/
  | alike {acts : List Action} {s : Session}
      (h : ∀ b, (handle p).Runs (c.withAutoAck b) (.ok ()) acts
        { c.withAutoAck b with session := s })
      (hquiet : ∀ d v, .emit v ∈ acts → answer d v = none) : Divides c p acts s
  | answered {v : Event} {kind : AckKind} {id : UInt16} {reason : Reason}
      {acts acts' : List Action} {s : Session}
      (hauto : (handle p).Runs (c.withAutoAck true) (.ok ()) acts
        { c.withAutoAck true with session := s })
      (hmanual : (handle p).Runs (c.withAutoAck false) (.ok ()) [.emit v] (c.withAutoAck false))
      (hanswer : c.answer v = some (.acknowledge kind id reason))
      (hreply : (acknowledge kind id reason).Runs (c.withAutoAck false) (.ok ()) acts'
        { c.withAutoAck false with session := s })
      (h : Reordered acts (.emit v :: acts')) : Divides c p acts s

/-- What an application that is connected acknowledges. -/
theorem runs_acknowledge (kind : AckKind) (id : UInt16) (reason : Reason) {x : Reaction Unit}
    (hconn : c.isConnected) (hx : acknowledge kind id reason = requireConnected >>= fun _ => x)
    (h : x.Runs c (.ok ()) acts c') : (acknowledge kind id reason).Runs c (.ok ()) acts c' := by
  rw [hx]
  exact (runs_requireConnected hconn).bind h

/-! ### PUBLISH -/

theorem answer_publish (d : Client) {p : Publish} (h : p.qos = .atMostOnce ∨ p.id = none) :
    d.answer (.publish (.ofPublish p)) = none := by
  rw [answer, Message.ofPublish]
  rcases h with h | h <;> rw [h]
  cases p.qos <;> rfl

/-- At QoS 0 there is nothing to acknowledge. -/
theorem divides_plain {p : Publish} (h : p.qos = .atMostOnce ∨ p.id = none) :
    Divides c (.publish p) [.emit (.publish (.ofPublish p))] c.session := by
  refine .alike (fun b => ?_) fun d v hv => ?_
  · have hsteps : Delivery.onPublish p.id p.qos (repeated (c.withAutoAck b).session.ledger p)
        (c.withAutoAck b).options.autoAck = [.deliver none] := by
      rcases h with h | h <;> rw [h]
      · rfl
      · cases p.qos <;> rfl
    exact runs_onPublish_of_steps _ hsteps (runs_takeAll_one (runs_deliver p none))
  · obtain rfl : v = .publish (.ofPublish p) := by simpa using hv
    exact answer_publish d h

theorem divides_atLeastOnce (hconn : c.isConnected) {p : Publish} {id : UInt16}
    (hq : p.qos = .atLeastOnce) (hid : p.id = some id) :
    Divides c (.publish p) [.emit (.publish (.ofPublish p)),
      .send (Retained.ackBytes c.version .pubAck id .success)] c.session := by
  have hsteps : ∀ b, Delivery.onPublish p.id p.qos (repeated (c.withAutoAck b).session.ledger p)
      (c.withAutoAck b).options.autoAck =
        .deliver (some id) :: if b then [.sendPubAck id] else [] := by
    intro b
    rw [hq, hid]
    rfl
  have hsend : ∀ b, (sendAck .pubAck id .success).Runs (c.withAutoAck b) (.ok ())
      [.send (Retained.ackBytes c.version .pubAck id .success)] (c.withAutoAck b) :=
    fun b => runs_sendAck _ _ _
  have hauto : (takeAll (some (.ofPublish p)) [.deliver (some id), .sendPubAck id]).Runs
      (c.withAutoAck true) (.ok ()) [.emit (.publish (.ofPublish p)),
        .send (Retained.ackBytes c.version .pubAck id .success)] (c.withAutoAck true) :=
    runs_takeAll_cons (runs_deliver p _) (runs_takeAll_one (hsend true))
  refine .answered (runs_onPublish_of_steps _ (hsteps true) hauto)
    (runs_onPublish_of_steps _ (hsteps false) (runs_takeAll_one (runs_deliver p (some id)))) ?_
    (runs_acknowledge .pubAck id .success hconn rfl (hsend false)) (.refl _)
  rw [answer, Message.ofPublish, hq, hid]

theorem divides_exactlyOnce (hc : c.session.WF) (hconn : c.isConnected) {p : Publish} {id : UInt16}
    (hq : p.qos = .exactlyOnce) (hid : p.id = some id) (hne : id ≠ 0) :
    ∃ acts s, Divides c (.publish p) acts s := by
  have hsteps : ∀ b, Delivery.onPublish p.id p.qos (repeated (c.withAutoAck b).session.ledger p)
      (c.withAutoAck b).options.autoAck =
        if ((c.session.ledger.get? (.inbound id)).map (·.awaits)).isSome then [.resendPubRec id]
        else .deliver (some id) :: if b then [.sendPubRec id] else [] := by
    intro b
    rw [repeated, hq, hid]
    rfl
  rcases hget : c.session.ledger.get? (.inbound id) with _ | e
  · have hk := hc.ledger.get?_eq_none_iff.1 hget
    simp only [hget, Option.map_none, Option.isSome_none, Bool.false_eq_true, ↓reduceIte] at hsteps
    obtain ⟨l, hl⟩ := Ledger.insert_eq_ok hc.ledger (e := .receipt c.version id .success) hk
    have htrack : ∀ b, (trackInbound id .success).Runs (c.withAutoAck b) (.ok ())
        [.persist (.started (.receipt c.version id .success)),
          .send (Retained.ackBytes c.version .pubRec id .success)]
        { c.withAutoAck b with session := { c.session with ledger := l } } := fun b =>
      runs_trackInbound_of_track hne (Session.track_eq hl)
    have hauto : (takeAll (some (.ofPublish p)) [.deliver (some id), .sendPubRec id]).Runs
        (c.withAutoAck true) (.ok ()) _ _ :=
      runs_takeAll_cons (runs_deliver p _) (runs_takeAll_one (htrack true))
    refine ⟨_, _, .answered (runs_onPublish_of_steps _ (hsteps true) hauto)
      (runs_onPublish_of_steps _ (hsteps false) (runs_takeAll_one (runs_deliver p (some id)))) ?_
      (runs_acknowledge .pubRec id .success hconn rfl (runs_session.bind ?_)) (.refl _)⟩
    · rw [answer, Message.ofPublish, hq, hid]
    · have hfresh : (c.withAutoAck false).session.ledger.contains (.inbound id) = false :=
        hc.ledger.contains_eq_false_iff.2 hk
      rw [hfresh]
      exact htrack false
  · -- a repetition is not delivered, so the application has nothing to answer
    obtain ⟨he, hk⟩ := hc.ledger.get?_eq_some_iff.1 hget
    refine ⟨[.send e.frame], c.session, .alike (fun b => ?_) fun d v hv => by simp at hv⟩
    rw [hget] at hsteps
    exact runs_onPublish_of_steps _ (hsteps b) (runs_takeAll_one (runs_resend hc he hk))

theorem divides_publish (hc : c.session.WF) (hconn : c.isConnected) {p : Publish}
    (hp : p.id ≠ some 0) : ∃ acts s, Divides c (.publish p) acts s := by
  cases hid : p.id with
  | none => exact ⟨_, _, divides_plain (.inr hid)⟩
  | some id =>
    cases hq : p.qos with
    | atMostOnce => exact ⟨_, _, divides_plain (.inl hq)⟩
    | atLeastOnce => exact ⟨_, _, divides_atLeastOnce hconn hq hid⟩
    | exactlyOnce =>
      exact divides_exactlyOnce hc hconn hq hid fun hzero => hp (by rw [hid, hzero])

/-! ### Acknowledgments of what was published -/

/-- What an acknowledgment does that calls for no PUBREL, or for the one that was sent. -/
def concluded (s : Session) (kind : AckKind) (a : Ack) : List Action × Session :=
  match s.ledger.get? (.outbound a.id) with
  | none => ([], s)
  | some e =>
    if e.awaits = kind.packetType then
      ([.persist (.erase (.outbound a.id)), .emit (.ack kind a.id a.reason)],
        (s.complete (.outbound a.id)).2)
    else if kind = .pubRec ∧ e.awaits = .pubComp then ([.send e.frame], s)
    else (failure (.outOfOrder a.id e.awaits kind.packetType), s)

theorem Continues.concluded (hc : c.session.WF) {kind : AckKind} {a : Ack}
    (h : Continues c a kind acts c') (hkind : kind ≠ .pubRel)
    (hr : kind = .pubRec → c.session.ledger.awaits? (.outbound a.id) = some .pubRec →
      a.reason.isError) :
    acts = (concluded c.session kind a).1 ∧
      c' = { c with session := (concluded c.session kind a).2 } := by
  cases h with
  | unsolicited hkind hk =>
    rw [Client.concluded, hc.ledger.get?_eq_none_iff.2 hk]
    exact ⟨rfl, rfl⟩
  | outOfOrder hkind he hk ha hrep =>
    rw [Client.concluded, hc.ledger.get?_eq_some_iff.2 ⟨he, hk⟩]
    dsimp only
    rw [if_neg ha, if_neg fun h => hrep h.1 h.2]
    exact ⟨rfl, rfl⟩
  | settled he hk ha =>
    rw [Client.concluded, hc.ledger.get?_eq_some_iff.2 ⟨he, hk⟩]
    dsimp only
    rw [if_pos ha]
    exact ⟨rfl, rfl⟩
  | releasedAgain he hk ha =>
    rw [Client.concluded, hc.ledger.get?_eq_some_iff.2 ⟨he, hk⟩]
    simp [ha, AckKind.packetType]
  | released hk ha hok hauto hl =>
    have hawaits := awaits?_eq_some hc hl.mem hk
    rw [ha] at hawaits
    simp [hr rfl hawaits] at hok
  | noted he hk ha hok =>
    have hawaits := awaits?_eq_some hc he hk
    rw [ha] at hawaits
    simp [hr rfl hawaits] at hok
  | ended | endedAgain | endNoted => exact absurd rfl hkind

/-- Nothing of it is to be answered. -/
theorem answer_concluded {kind : AckKind} {a : Ack} (hkind : kind ≠ .pubRel)
    (hr : kind = .pubRec → c.session.ledger.awaits? (.outbound a.id) = some .pubRec →
      a.reason.isError) {v : Event} (hv : .emit v ∈ (concluded c.session kind a).1) (d : Client) :
    d.answer v = none := by
  rw [concluded] at hv
  split at hv
  · cases hv
  · rename_i e hget
    split at hv
    · rename_i ha
      obtain rfl : v = .ack kind a.id a.reason := by simpa using hv
      cases kind with
      | pubAck | pubComp => rfl
      | pubRel => exact absurd rfl hkind
      | pubRec =>
        rw [answer, if_pos (hr rfl (by rw [Ledger.awaits?, hget, Option.map_some, ha]; rfl))]
    · split at hv
      · simp at hv
      · obtain rfl : v = .error (.outOfOrder a.id e.awaits kind.packetType) := by
          simpa [failure] using hv
        rfl

theorem divides_concluded (hc : c.session.WF) {kind : AckKind} {a : Ack} (hkind : kind ≠ .pubRel)
    (hr : kind = .pubRec → c.session.ledger.awaits? (.outbound a.id) = some .pubRec →
      a.reason.isError) :
    Divides c (.ack kind a) (concluded c.session kind a).1 (concluded c.session kind a).2 := by
  refine .alike (fun b => ?_) fun d v hv => answer_concluded hkind hr hv d
  have hcb : (c.withAutoAck b).session.WF := hc
  obtain ⟨acts, c', hrun, h⟩ := runs_onAck hcb kind a
  obtain ⟨hacts, hc'⟩ := h.concluded hcb hkind hr
  exact hrun.cast hacts hc'

/-- A PUBREC that is waited for runs as the steps that its rule asks for. -/
theorem runs_onPubRec_of_steps {a : Ack}
    (ha : c.session.ledger.awaits? (.outbound a.id) = some .pubRec)
    (hr : a.reason.isError = false) (steps : List Delivery.Step)
    (hsteps : (if c.options.autoAck then [.sendPubRel a.id] else []) = steps)
    (h : (takeAll none steps).Runs c (.ok ()) acts c') :
    (handle (.ack .pubRec a)).Runs c (.ok ()) (acts ++ [.emit (.ack .pubRec a.id a.reason)])
      c' := by
  refine Runs.guarded_client ((runs_onReply steps ?_ h).cast ?_ rfl)
  · rw [ha, ← hsteps]
    simp [Delivery.onPubRec, hr]
  · rw [if_pos (by rw [ha]; rfl)]

/-- A PUBREC is answered with PUBREL. -/
theorem divides_pubRec (hc : c.session.WF) (hconn : c.isConnected) {a : Ack}
    (ha : c.session.ledger.awaits? (.outbound a.id) = some .pubRec)
    (hr : a.reason.isError = false) : ∃ acts s, Divides c (.ack .pubRec a) acts s := by
  obtain ⟨e, hget, hawaits⟩ := Option.map_eq_some_iff.1 ha
  obtain ⟨he, hk⟩ := hc.ledger.get?_eq_some_iff.1 hget
  obtain ⟨hid, hd⟩ := Exchange.key_eq_outbound.1 hk
  have hcheck : (e.released c.version .success).check = .ok () :=
    Exchange.check_released_eq (hc.checks e he) hd hawaits
  obtain ⟨l, -, hadvance⟩ := Session.advance_eq hc.ledger he hcheck
  rw [hk, hid] at hadvance
  have hrelease : ∀ b, (releaseOutbound a.id .success).Runs (c.withAutoAck b) (.ok ())
      [.persist (.moved (e.released c.version .success)),
        .send (Retained.ackBytes c.version .pubRel a.id .success)]
      { c.withAutoAck b with session := { c.session with ledger := l } } := fun b => by
    have hrun := runs_releaseOutbound_of_advance (c := c.withAutoAck b) hadvance
    rwa [← hid] at hrun ⊢
  refine ⟨_, _, .answered
    (runs_onPubRec_of_steps (c := c.withAutoAck true) ha hr [.sendPubRel a.id] rfl
      (runs_takeAll_one (hrelease true)))
    (runs_onPubRec_of_steps (c := c.withAutoAck false) ha hr [] rfl runs_takeAll_nil) ?_
    (runs_acknowledge .pubRel a.id .success hconn rfl (runs_session.bind ?_))
    (reordered_emit _ rfl)⟩
  · rw [answer, if_neg (by simp [hr])]
  · have hawaits : (c.withAutoAck false).session.ledger.awaits? (.outbound a.id) = some .pubRec :=
      ha
    rw [hawaits]
    exact hrelease false

/-! ### PUBREL -/

theorem runs_pubComp {id : UInt16} {reason : Reason} (hconn : c.isConnected)
    (h : (complete (.inbound id)).Runs c (.ok ()) acts c') :
    (acknowledge .pubComp id reason).Runs c (.ok ())
      (acts ++ [.send (Retained.ackBytes c.version .pubComp id reason)]) c' := by
  refine runs_acknowledge .pubComp id reason hconn rfl (runs_client.bind ?_)
  exact (runs_lift_ok (Retained.ack_eq ..)).bind (h.bind (runs_send _))

theorem divides_pubRel (hc : c.session.WF) (hconn : c.isConnected) (a : Ack) :
    ∃ acts s, Divides c (.ack .pubRel a) acts s := by
  have hmanual := runs_onPubRel_of_steps (c := c.withAutoAck false) (a := a) [] rfl runs_takeAll_nil
  by_cases hk : Key.inbound a.id ∈ c.session.ledger.keys
  · obtain ⟨e, he, hkey⟩ := Ledger.mem_keys.1 hk
    have hawaits : c.session.ledger.awaits? (.inbound a.id) = some .pubRel := by
      rw [Ledger.awaits?, hc.ledger.get?_eq_some_iff.2 ⟨he, hkey⟩, Option.map_some,
        (Exchange.awaits_inbound (hc.checks e he) (Exchange.key_eq_inbound.1 hkey).2).1]
    have hsteps : Delivery.onPubRel a.id (c.session.ledger.awaits? (.inbound a.id)) true =
        [.complete a.id .inbound .success, .sendPubComp a.id .success] := by
      rw [hawaits]
      rfl
    have hend : ∀ b, (complete (.inbound a.id)).Runs (c.withAutoAck b) (.ok ()) _ _ := fun b =>
      runs_complete (c := c.withAutoAck b) hc hk
    have hauto : (takeAll none [.complete a.id .inbound .success,
        .sendPubComp a.id .success]).Runs (c.withAutoAck true) (.ok ()) _ _ :=
      runs_takeAll_cons (hend true) (runs_takeAll_one (runs_sendAck _ _ _))
    refine ⟨_, _, .answered (runs_onPubRel_of_steps _ hsteps hauto) hmanual ?_
      (runs_pubComp hconn (hend false)) (reordered_emit _ rfl)⟩
    rw [answer, if_pos (hc.ledger.contains_iff.2 hk)]
  · have hsteps : Delivery.onPubRel a.id (c.session.ledger.awaits? (.inbound a.id)) true =
        [.sendPubComp a.id .packetIdentifierNotFound] := by
      rw [Ledger.awaits?, hc.ledger.get?_eq_none_iff.2 hk]
      rfl
    have hauto : (takeAll none [.sendPubComp a.id .packetIdentifierNotFound]).Runs
        (c.withAutoAck true) (.ok ()) _ (c.withAutoAck true) :=
      runs_takeAll_one (runs_sendAck _ _ _)
    have hnothing := runs_complete_none (c := c.withAutoAck false) hc hk
    refine ⟨_, c.session, .answered (runs_onPubRel_of_steps _ hsteps hauto) hmanual ?_
      (runs_pubComp hconn hnothing) (reordered_emit _ rfl)⟩
    rw [answer, if_neg (by simp [hc.ledger.contains_eq_false_iff.2 hk])]

/-- Every packet of an exchange divides. -/
theorem divides_exchanged (hc : c.session.WF) (hconn : c.isConnected) {p : Packet}
    (hp : p.Exchanged) : ∃ acts s, Divides c p acts s := by
  cases p with
  | publish p => exact divides_publish hc hconn hp
  | ack kind a =>
    by_cases hrel : kind = .pubRel
    · subst hrel
      exact divides_pubRel hc hconn a
    by_cases hr : kind = .pubRec → c.session.ledger.awaits? (.outbound a.id) = some .pubRec →
        a.reason.isError
    · exact ⟨_, _, divides_concluded hc hrel hr⟩
    · push Not at hr
      obtain ⟨rfl, ha, hr⟩ := hr
      exact divides_pubRec hc hconn ha (by simpa using hr)
  | connect | connAck | subscribe | subAck | unsubscribe | unsubAck | pingReq | pingResp
  | disconnect => exact hp.elim

/-! ## Whole runs -/

/-- One packet with automatic acknowledgment, and without it once its events are answered. -/
theorem Divides.run (hconn : c.isConnected) {p : Packet} {s : Session} (h : Divides c p acts s) :
    (c.withAutoAck true).step (.receive p) =
        ⟨.ok none, acts, { c.withAutoAck true with session := s }⟩ ∧
      (c.withAutoAck false).after ((c.withAutoAck false).attendTo p) =
        { c.withAutoAck false with session := s } ∧
      Reordered acts ((c.withAutoAck false).actionsOf ((c.withAutoAck false).attendTo p)) := by
  cases h with
  | alike h hquiet =>
    have hmanual : (c.withAutoAck false).step (.receive p) =
        ⟨.ok none, acts, { c.withAutoAck false with session := s }⟩ :=
      step_receive_of_runs hconn (h false)
    have hnothing : ({ c.withAutoAck false with session := s } : Client).answers acts = [] := by
      refine List.filterMap_eq_nil_iff.2 fun a ha => ?_
      cases a with
      | emit v =>
        change ((answer _ v).map Op.request) = none
        rw [hquiet _ v ha, Option.map_none]
      | send | persist | keepAlive | close => rfl
    refine ⟨step_receive_of_runs hconn (h true), ?_, ?_⟩
    · simp only [attendTo, hmanual, hnothing, after, List.foldl_cons, List.foldl_nil]
    · simp only [attendTo, hmanual, hnothing, actionsOf, List.append_nil]
      exact .refl acts
  | @answered v kind id reason _ acts' _ hauto hmanual hanswer hreply h =>
    have hmanual : (c.withAutoAck false).step (.receive p) =
        ⟨.ok none, [.emit v], c.withAutoAck false⟩ :=
      step_receive_of_runs hconn hmanual
    have hreply : (c.withAutoAck false).step (.request (.acknowledge kind id reason)) =
        ⟨.ok none, acts', { c.withAutoAck false with session := s }⟩ := step_of_runs rfl hreply
    have hanswers : (c.withAutoAck false).answers [.emit v] =
        [.request (.acknowledge kind id reason)] := by
      have hanswer : (c.withAutoAck false).answer v = some (.acknowledge kind id reason) := hanswer
      simp [answers, Action.event?, hanswer]
    refine ⟨step_receive_of_runs hconn hauto, ?_, ?_⟩
    · simp only [attendTo, hmanual, hanswers, after, List.foldl_cons, List.foldl_nil, hreply]
    · simp only [attendTo, hmanual, hanswers, actionsOf, hreply, List.append_nil]
      exact h

/-- Packets with automatic acknowledgment, and without it as long as their events are answered. -/
theorem attend_alike (hc : c.WF) (hconn : c.isConnected) (ps : List Packet)
    (hps : ∀ p ∈ ps, p.Exchanged) : ∃ s,
      (c.withAutoAck true).after (ps.map .receive) = { c.withAutoAck true with session := s } ∧
      (c.withAutoAck false).after ((c.withAutoAck false).attend ps) =
        { c.withAutoAck false with session := s } ∧
      Reordered ((c.withAutoAck true).actionsOf (ps.map .receive))
        ((c.withAutoAck false).actionsOf ((c.withAutoAck false).attend ps)) := by
  induction ps generalizing c with
  | nil => exact ⟨c.session, rfl, rfl, .refl _⟩
  | cons p ps ih =>
    obtain ⟨acts, s, h⟩ := divides_exchanged hc.session hconn (hps p List.mem_cons_self)
    obtain ⟨hstep, hafter, hactions⟩ := h.run hconn
    -- the packets after this one start from the session that it leaves
    have hwf : ({ c with session := s } : Client).WF := by
      have hauto : (c.withAutoAck true).WF := ⟨hc.session, hc.idle⟩
      have hwf := wf_step hauto (.receive p)
      rw [hstep] at hwf
      exact ⟨hwf.session, hwf.idle⟩
    obtain ⟨s', hauto, hmanual, hrest⟩ := ih hwf hconn fun q hq => hps q (List.mem_cons_of_mem p hq)
    refine ⟨s', ?_, ?_, ?_⟩
    · rw [List.map_cons, after, List.foldl_cons, hstep]
      exact hauto
    · rw [attend, after_append, hafter]
      exact hmanual
    · rw [attend, actionsOf_append, hafter, List.map_cons, actionsOf, hstep]
      exact hactions.append hrest

/-- A client that acknowledges by itself and one whose application answers every event at once do
the same about any exchanged packets: they send the same frames and change the same records in the
same order, report the same events, and end up with the same session. -/
theorem acknowledged_by_hand (options : ClientOptions) (ops : List Op) (ps : List Packet)
    (hconn : ((new options).after ops).isConnected) (hps : ∀ p ∈ ps, p.Exchanged) :
    let auto := ((new options).after ops).withAutoAck true
    let manual := ((new options).after ops).withAutoAck false
    manual.after (manual.attend ps) = (auto.after (ps.map .receive)).withAutoAck false ∧
      Reordered (auto.actionsOf (ps.map .receive)) (manual.actionsOf (manual.attend ps)) := by
  obtain ⟨s, hauto, hmanual, h⟩ := attend_alike (wf_after (wf_new options) ops) hconn ps hps
  refine ⟨?_, h⟩
  rw [hauto, hmanual]
  rfl

/-- A QoS 2 message waits for its PUBREC under identifier 1. -/
def awaiting : List Op :=
  [.connect {} 0, .receive (.connAck ⟨false, .success, .empty, .v5⟩),
    .request (.publish (.ofMessage "t" [1] .exactlyOnce false))]

/-- A message and its PUBREL, the PUBREC and PUBCOMP of the one that waits, all but the last twice,
and a PUBACK of nothing. -/
def repetitive : List Packet :=
  let message : Publish := { Publish.ofMessage "t" [7] .exactlyOnce false with id := some 1 }
  [.publish message, .publish { message with dup := true }, .ack .pubRel (.ofReason 1 .success),
    .ack .pubRel (.ofReason 1 .success), .ack .pubRec (.ofReason 1 .success),
    .ack .pubRec (.ofReason 1 .success), .ack .pubComp (.ofReason 1 .success),
    .ack .pubAck (.ofReason 9 .success)]

/-- The second PUBREL is answered, though its exchange has ended; the second PUBLISH and the second
PUBREC are not for the application to answer. -/
theorem acknowledged_by_hand_repetitive :
    let auto := ((new {}).after awaiting).withAutoAck true
    let manual := ((new {}).after awaiting).withAutoAck false
    ((new {}).after awaiting).isConnected ∧ (∀ p ∈ repetitive, p.Exchanged) ∧
      (manual.attend repetitive).filter (· ∉ repetitive.map .receive) =
        [.request (.acknowledge .pubRec 1 .success), .request (.acknowledge .pubComp 1 .success),
          .request (.acknowledge .pubComp 1 .packetIdentifierNotFound),
          .request (.acknowledge .pubRel 1 .success)] ∧
      manual.after (manual.attend repetitive) =
        (auto.after (repetitive.map .receive)).withAutoAck false ∧
      Reordered (auto.actionsOf (repetitive.map .receive))
        (manual.actionsOf (manual.attend repetitive)) := by
  have hconn : ((new {}).after awaiting).isConnected := by cbv
  have hps : ∀ p ∈ repetitive, p.Exchanged := by
    simp [repetitive, Packet.Exchanged, Publish.ofMessage, Ack.ofReason]
  have hanswers :
      ((((new {}).after awaiting).withAutoAck false).attend repetitive).filter
          (· ∉ repetitive.map .receive) =
        [.request (.acknowledge .pubRec 1 .success), .request (.acknowledge .pubComp 1 .success),
          .request (.acknowledge .pubComp 1 .packetIdentifierNotFound),
          .request (.acknowledge .pubRel 1 .success)] := by cbv
  exact ⟨hconn, hps, hanswers, acknowledged_by_hand {} awaiting repetitive hconn hps⟩

end Client

end Mqtt
