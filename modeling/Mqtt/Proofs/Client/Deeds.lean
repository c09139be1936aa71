import Mqtt.Proofs.Client.Persistence
import Mqtt.Proofs.Packet.Role

/-!
# Operations as deeds

`Deed` lists what an operation does about exchanges, each with its actions: the change of a record
stands right before the frame that it makes safe to send. Whatever an operation does is a row of
deeds, from the ledger before it to the ledger after it: `Steps.deeds`. Taking in a record is no
deed, since it has no actions.

An exchange is faithful if its frame has the role that the exchange says. A row of deeds keeps the
exchanges faithful: `Deeds.faithful`.
-/

namespace Mqtt

/-- The retained frame has the type and the identifier of the exchange and is not marked as sent
again. -/
def Exchange.Faithful (e : Exchange) : Prop :=
  Role.ofFrame? e.frame = some ⟨e.retains, e.id, false⟩

/-- Every exchange in flight is faithful. -/
def Ledger.Faithful (l : Ledger) : Prop := ∀ e ∈ l.toList, e.Faithful

namespace Exchange

variable {e : Exchange}

theorem faithful_receipt (v : Version) (id : UInt16) (reason : Reason) :
    (receipt v id reason).Faithful :=
  Role.ofFrame?_ackBytes v .pubRec id reason

theorem faithful_released (hd : e.direction = .outbound) (v : Version) (reason : Reason) :
    (e.released v reason).Faithful := by
  have hretains : (e.released v reason).retains = .pubRel := by rw [retains, released, hd]
  rw [Faithful, hretains]
  exact Role.ofFrame?_ackBytes v .pubRel e.id reason

theorem Faithful.reframed (he : e.Faithful) {frame : Bytes} {v : Version}
    (hf : Retained.convert e.frame e.version v = .ok frame) : (e.reframed frame v).Faithful :=
  (Role.ofFrame?_of_convert hf).trans he

/-- A retained frame is not marked as sent again. -/
theorem Faithful.repeated (he : e.Faithful) {r : Role} (hr : Role.ofFrame? e.frame = some r) :
    r.repeated = false := by
  obtain rfl := Option.some.inj (he.symm.trans hr)
  rfl

/-- The exchange of a published message retains PUBLISH until it waits for PUBCOMP. -/
theorem retains_outbound (hd : e.direction = .outbound) :
    e.retains = if e.awaits = .pubComp then .pubRel else .publish := by
  rw [retains, hd]
  cases e.awaits <;> rfl

theorem retains_inbound (hd : e.direction = .inbound) : e.retains = .pubRec := by
  rw [retains, hd]

end Exchange

namespace Client

/-- An action that neither writes a frame nor changes the records. -/
def Action.Quiet (a : Action) : Prop := a.frame? = none ∧ a.change? = none

/-- The operation resumes the session: it is a CONNACK that accepts the connection which the client
has asked for, and the server has the session. -/
def Resuming (c : Client) (op : Op) : Prop :=
  ∃ a : ConnAck, (op = .receive (.connAck a) ∨ op = .handle (.connAck a)) ∧
    c.phase = .connecting ∧ a.reason.isError = false ∧ a.sessionPresent

/-- What an operation of a client does about exchanges, with its actions. -/
inductive Deed (c : Client) (op : Op) (l : Ledger) : List Action → Ledger → Prop
  | quiet {acts : List Action} (h : ∀ a ∈ acts, a.Quiet) : Deed c op l acts l
  /-- A frame that belongs to no exchange is written. -/
  | plain {frame : Bytes} (h : ∀ r, Role.ofFrame? frame = some r → r.type = .pubAck) :
      Deed c op l [.send frame] l
  | start {e : Exchange} {m : Ledger} (hf : e.Faithful) (ha : e.awaits ≠ .pubComp)
      (hv : e.version = c.version) (hconn : e.direction = .outbound → c.isConnected)
      (hl : Ledger.Started l e m) : Deed c op l [.persist (.started e), .send e.frame] m
  | release {e : Exchange} {reason : Reason} {m : Ledger} (hd : e.direction = .outbound)
      (ha : e.awaits = .pubRec) (hl : Ledger.Moved l e (e.released c.version reason) m) :
      Deed c op l
        [.persist (.moved (e.released c.version reason)),
          .send (e.released c.version reason).frame] m
  /-- A retained PUBREC or PUBREL is written again. -/
  | answer {e : Exchange} (he : e ∈ l.toList) (hr : e.retains ≠ .publish) :
      Deed c op l [.send e.frame] l
  /-- A PUBLISH is written again. -/
  | repeated {e : Exchange} {frame : Bytes} (hop : c.Resuming op) (he : e ∈ l.toList)
      (hd : e.direction = .outbound) (ha : e.awaits ≠ .pubComp)
      (hf : Publish.markDup e.frame = .ok frame) : Deed c op l [.send frame] l
  /-- A retained frame is converted to the version of the connection. -/
  | convert {e : Exchange} {frame : Bytes} {m : Ledger} (hop : c.Resuming op)
      (hd : e.direction = .outbound) (hv : e.version ≠ c.version)
      (hf : Retained.convert e.frame e.version c.version = .ok frame)
      (hl : Ledger.Moved l e (e.reframed frame c.version) m) :
      Deed c op l [.persist (.moved (e.reframed frame c.version))] m
  | finish {k : Key} (hk : k ∈ l.keys) : Deed c op l [.persist (.erase k)] (l.erase k)
  | forget : Deed c op l (Reaction.erasures l) l.clear
  /-- PUBCOMP is written, with no exchange left. -/
  | complete {frame : Bytes} {id : UInt16} (hf : Role.ofFrame? frame = some ⟨.pubComp, id, false⟩)
      (hk : Key.inbound id ∉ l.keys) : Deed c op l [.send frame] l
  /-- PUBREC is written to refuse a message, so there is no exchange. -/
  | refuse {frame : Bytes} {id : UInt16} {reason : Reason}
      (hop : op = .request (.acknowledge .pubRec id reason)) (hr : reason.isError)
      (hf : Role.ofFrame? frame = some ⟨.pubRec, id, false⟩) (hk : Key.inbound id ∉ l.keys) :
      Deed c op l [.send frame] l

/-- Deeds in a row. -/
inductive Deeds (c : Client) (op : Op) : Ledger → List Action → Ledger → Prop
  | none (l : Ledger) : Deeds c op l [] l
  | next {l m n : Ledger} {acts acts' : List Action} (h : Deed c op l acts m)
      (hs : Deeds c op m acts' n) : Deeds c op l (acts ++ acts') n

variable {c c' : Client} {op : Op} {l m n : Ledger} {acts acts' : List Action}

theorem Deed.one (h : Deed c op l acts m) : Deeds c op l acts m := by
  have := Deeds.next h (.none m)
  rwa [List.append_nil] at this

theorem Deeds.trans (h : Deeds c op l acts m) (hs : Deeds c op m acts' n) :
    Deeds c op l (acts ++ acts') n := by
  induction h with
  | none => exact hs
  | next h _ ih =>
    rw [List.append_assoc]
    exact .next h (ih hs)

/-! ## Faithful exchanges -/

theorem Deed.wf (hl : l.WF) (h : Deed c op l acts m) : m.WF := by
  cases h with
  | quiet | plain | answer | repeated | complete | refuse => exact hl
  | start _ _ _ _ h => exact h.wf
  | release _ _ h => exact h.wf
  | convert _ _ _ _ h => exact h.wf
  | finish => exact Ledger.wf_erase hl _
  | forget => exact Ledger.wf_clear l

theorem faithful_moved {e e' : Exchange} (hl : l.Faithful) (h : Ledger.Moved l e e' m)
    (he : e'.Faithful) : m.Faithful := by
  intro x hx
  rw [h.toList, List.mem_map] at hx
  obtain ⟨y, hy, rfl⟩ := hx
  split
  · exact he
  · exact hl y hy

theorem Deed.faithful (hl : l.WF) (hf : l.Faithful) (h : Deed c op l acts m) : m.Faithful := by
  cases h with
  | quiet | plain | answer | repeated | complete | refuse => exact hf
  | start he _ _ _ h =>
    intro x hx
    rw [h.toList, List.mem_append, List.mem_singleton] at hx
    rcases hx with hx | rfl
    · exact hf x hx
    · exact he
  | release hd _ h => exact faithful_moved hf h (Exchange.faithful_released hd _ _)
  | convert _ _ _ hconvert h => exact faithful_moved hf h ((hf _ h.mem).reframed hconvert)
  | finish =>
    intro x hx
    rw [Ledger.toList_erase hl] at hx
    exact hf x (List.mem_filter.1 hx).1
  | forget => simp [Ledger.Faithful]

theorem Deeds.faithful (hl : l.WF) (hf : l.Faithful) (h : Deeds c op l acts m) :
    m.Faithful := by
  induction h with
  | none => exact hf
  | next h _ ih => exact ih (h.wf hl) (h.faithful hl hf)

/-! ## Every operation is a row of deeds -/

theorem Deed.emit (v : Event) : Deed c op l [.emit v] l :=
  .quiet (by simp [Action.Quiet, Action.frame?, Action.change?])

/-- A packet that belongs to no exchange is written. -/
theorem Deed.packet {p : Packet} {frame : Bytes} (hf : p.toBytes = .ok frame)
    (hp : ∀ r, Role.ofPacket? p = some r → r.type = .pubAck) : Deed c op l [.send frame] l :=
  .plain fun r hr => hp r (by rwa [← Role.ofFrame?_of_toBytes hf])

theorem Deed.pubAck (v : Version) (id : UInt16) (reason : Reason) :
    Deed c op l [.send (Retained.ackBytes v .pubAck id reason)] l :=
  .packet (Retained.ack_eq v .pubAck id reason) fun r hr => by
    cases hr
    rfl

theorem deeds_failure (e : Error) : Deeds c op l (failure e) l :=
  (Deed.quiet (by simp [failure, Action.Quiet, Action.frame?, Action.change?])).one

theorem deeds_failureOf (r : Except Error Unit) : Deeds c op l (failureOf r) l := by
  cases r with
  | ok u => exact .none l
  | error e => exact deeds_failure e

theorem deeds_greeting (p : ConnAck) : Deeds c op l (c.greeting p) l := by
  refine (Deed.quiet ?_).one
  unfold greeting
  split <;> simp [Action.Quiet, Action.frame?, Action.change?]

theorem deed_complete (hc : c.session.WF) {k : Key} (hk : k ∈ c.session.ledger.keys) :
    Deed c op c.session.ledger [.persist (.erase k)] (c.session.complete k).2.ledger := by
  rw [hc.complete_eq, if_pos hk]
  exact .finish hk

/-- The exchange of a received message is ended before PUBCOMP is written. -/
theorem deeds_completed (hc : c.session.WF) {id : UInt16}
    (hk : Key.inbound id ∈ c.session.ledger.keys) (v : Version) (reason : Reason) :
    Deeds c op c.session.ledger
      [.persist (.erase (.inbound id)), .send (Retained.ackBytes v .pubComp id reason)]
      (c.session.complete (.inbound id)).2.ledger := by
  have hgone : Key.inbound id ∉ (c.session.complete (.inbound id)).2.ledger.keys := by
    rw [hc.complete_eq, if_pos hk, Session.mem_keys_erase hc.ledger]
    exact fun h => h.2 rfl
  exact .next (deed_complete hc hk)
    (Deed.complete (Role.ofFrame?_ackBytes v .pubComp id reason) hgone).one

theorem Publishes.deeds {p : Publish} {a : Option UInt16} (hconn : c.isConnected)
    (h : Publishes c p a acts c') : Deeds c op c.session.ledger acts c'.session.ledger := by
  cases h with
  | once hq hf => exact (Deed.packet hf (by simp [Role.ofPacket?, hq])).one
  | @tracked id ids e l hq hid hf he hcheck hl =>
    have hd : e.direction = .outbound := congrArg Exchange.direction he
    have ha : e.awaits = Reaction.firstAwaited p.qos := congrArg Exchange.awaits he
    have hv : e.version = c.version := congrArg Exchange.version he
    have hne : e.awaits ≠ .pubComp := by
      rw [ha]
      cases p.qos <;> decide
    have hfaithful : e.Faithful := by
      have hrole := Role.ofFrame?_of_toBytes hf
      have hid' : e.id = id := congrArg Exchange.id he
      rw [Exchange.Faithful, hrole, Exchange.retains_outbound hd, if_neg hne, hid']
      simp [Role.ofPacket?, hq]
    exact (Deed.start hfaithful hne hv (fun _ => hconn) hl).one

theorem Subscribes.deeds {filters : List TopicFilter} {asked : Option UInt16} {id : UInt16}
    (h : Subscribes c filters asked id acts c') :
    Deeds c op c.session.ledger acts c'.session.ledger := by
  cases h with
  | sent hne hid hf => exact (Deed.packet hf (by simp [Role.ofPacket?])).one

theorem Unsubscribes.deeds {filter : String} {asked : Option UInt16} {id : UInt16}
    (h : Unsubscribes c filter asked id acts c') :
    Deeds c op c.session.ledger acts c'.session.ledger := by
  cases h with
  | sent hid hf => exact (Deed.packet hf (by simp [Role.ofPacket?])).one

theorem deed_receipt {id : UInt16} {reason : Reason}
    (hl : Ledger.Started c.session.ledger (.receipt c.version id reason) l) :
    Deed c op c.session.ledger
      [.persist (.started (.receipt c.version id reason)),
        .send (Retained.ackBytes c.version .pubRec id reason)] l :=
  .start (Exchange.faithful_receipt _ _ _) (by simp [Exchange.receipt]) rfl
    (fun h => by cases h) hl

theorem deed_released {e : Exchange} {id : UInt16} {reason : Reason} (hk : e.key = .outbound id)
    (ha : e.awaits = .pubRec)
    (hl : Ledger.Moved c.session.ledger e (e.released c.version reason) l) :
    Deed c op c.session.ledger
      [.persist (.moved (e.released c.version reason)),
        .send (Retained.ackBytes c.version .pubRel id reason)] l := by
  obtain ⟨rfl, hd⟩ := Exchange.key_eq_outbound.1 hk
  exact .release hd ha hl

theorem deed_releasedAgain {e : Exchange} {id : UInt16} (he : e ∈ c.session.ledger.toList)
    (hk : e.key = .outbound id) (ha : e.awaits = .pubComp) :
    Deed c op c.session.ledger [.send e.frame] c.session.ledger := by
  refine .answer he ?_
  rw [Exchange.retains_outbound (Exchange.key_eq_outbound.1 hk).2, if_pos ha]
  decide

theorem deed_receivedAgain {e : Exchange} {id : UInt16} (he : e ∈ c.session.ledger.toList)
    (hk : e.key = .inbound id) :
    Deed c op c.session.ledger [.send e.frame] c.session.ledger := by
  refine .answer he ?_
  rw [Exchange.retains_inbound (Exchange.key_eq_inbound.1 hk).2]
  decide

theorem Acknowledges.deeds (hc : c.session.WF) {id : UInt16} {reason : Reason} {kind : AckKind}
    (hop : op = .request (.acknowledge kind id reason))
    (h : Acknowledges c id reason kind acts c') :
    Deeds c op c.session.ledger acts c'.session.ledger := by
  cases h with
  | pubAck => exact (Deed.pubAck _ _ _).one
  | pubRecAgain he hk => exact (deed_receivedAgain he hk).one
  | pubRecRefusal hk hr => exact (Deed.refuse hop hr (Role.ofFrame?_ackBytes ..) hk).one
  | pubRec hid hr hl => exact (deed_receipt hl).one
  | pubRel hk ha hl => exact (deed_released hk ha hl).one
  | pubRelAgain he hk ha => exact (deed_releasedAgain he hk ha).one
  | pubComp hk => exact deeds_completed hc hk _ _
  | pubCompAgain hk => exact (Deed.complete (Role.ofFrame?_ackBytes ..) hk).one

theorem Abandons.deeds (hc : c.session.WF) {id : UInt16} (h : Abandons c id acts c') :
    Deeds c op c.session.ledger acts c'.session.ledger := by
  cases h with
  | message he hk hr => exact (deed_complete hc (Ledger.mem_keys.2 ⟨_, he, hk⟩)).one
  | nothing h => exact .none _

/-! ### Sending the outbound exchanges again -/

theorem deed_replay {e : Exchange} (hop : c.Resuming op) (he : e ∈ l.toList)
    (hd : e.direction = .outbound) (hcheck : e.check = .ok ()) :
    Deed c op l [.send e.replay] l := by
  by_cases ha : e.awaits = .pubComp
  · rw [Exchange.replay, if_pos ha]
    refine .answer he ?_
    rw [Exchange.retains_outbound hd, if_pos ha]
    decide
  · exact .repeated hop he hd ha (Exchange.markDup_frame hcheck hd ha)

theorem Resumes.deeds {d d' : Client} (hop : c.Resuming op) (hd : d.version = c.version)
    (hwf : d.session.WF) {e : Exchange} {r : Except Error Unit} (he : e ∈ d.session.ledger.toList)
    (hout : e.direction = .outbound) (h : Resumes d e r acts d') :
    Deeds c op d.session.ledger acts d'.session.ledger := by
  have hcheck := hwf.checks e he
  cases h with
  | current hv => exact (deed_replay hop he hout hcheck).one
  | @converted frame l hv hf hl =>
    rw [hd] at hv hf hl
    have hmem : e.reframed frame c.version ∈ l.toList := by
      rw [hl.toList]
      exact List.mem_map.2 ⟨e, he, if_pos rfl⟩
    have hcheck' := Exchange.check_reframed c.version hcheck (Retained.type_of_convert hf)
    rw [hd]
    exact .next (.convert hop hout hv hf hl) (deed_replay hop hmem hout hcheck').one
  | stuck => exact .none _

theorem Replays.deeds {d d' : Client} (hop : c.Resuming op) {ks : List Key}
    {r : Except Error Unit} (h : Replays d ks r acts d') (hd : d.version = c.version)
    (hwf : d.session.WF) : Deeds c op d.session.ledger acts d'.session.ledger := by
  induction h with
  | done => exact .none _
  | next he hout h hs ih =>
    have hversion := congrArg Client.version h.frame
    exact (h.deeds hop hd hwf he hout).trans (ih (hversion.trans hd) (h.wf hwf he))
  | stop he hout h => exact h.deeds hop hd hwf he hout

theorem version_welcomed (p : ConnAck) : (c.welcomed p).version = c.version := by
  unfold welcomed Reaction.overrides
  split <;> rfl

theorem Joins.deeds (hc : c.session.WF) {p : ConnAck}
    (hop : op = .receive (.connAck p) ∨ op = .handle (.connAck p)) (h : Joins c p acts c') :
    Deeds c op c.session.ledger acts c'.session.ledger := by
  have hledger : (c.welcomed p).session.ledger = c.session.ledger := by
    rw [Reaction.welcomed_session]
  cases h with
  | unexpected => exact deeds_failure _
  | refused => exact (Deed.quiet (by simp [Action.Quiet, Action.frame?, Action.change?])).one
  | fresh hp hr hs =>
    have hforget : Deed c op c.session.ledger (Reaction.erasures c.session.ledger)
        (c.welcomed p).session.purge.2.ledger := by
      rw [Session.purge, hledger]
      exact .forget
    exact .next hforget (deeds_greeting p)
  | resumed hp hr hs h =>
    have hreplay := h.deeds ⟨p, hop, hp, hr, hs⟩ (version_welcomed p) (Reaction.wf_welcomed hc p)
    rw [hledger] at hreplay
    exact ((deeds_greeting p).trans hreplay).trans (deeds_failureOf _)

/-! ### Packets -/

theorem Receives.deeds {p : Publish} (h : Receives c p acts c') :
    Deeds c op c.session.ledger acts c'.session.ledger := by
  cases h with
  | plain | manual => exact (Deed.emit _).one
  | once => exact .next (Deed.emit _) (Deed.pubAck _ _ _).one
  | tracked hq hid hauto hne hl => exact .next (Deed.emit _) (deed_receipt hl).one
  | zero => exact .next (Deed.emit _) (deeds_failure _)
  | repeated hq hid he hk => exact (deed_receivedAgain he hk).one

theorem Continues.deeds (hc : c.session.WF) {a : Ack} {kind : AckKind}
    (h : Continues c a kind acts c') : Deeds c op c.session.ledger acts c'.session.ledger := by
  cases h with
  | unsolicited => exact .none _
  | outOfOrder => exact deeds_failure _
  | settled he hk ha hr =>
    exact .next (deed_complete hc (Ledger.mem_keys.2 ⟨_, he, hk⟩)) (Deed.emit _).one
  | released hk ha hr hauto hl => exact .next (deed_released hk ha hl) (Deed.emit _).one
  | noted | endNoted => exact (Deed.emit _).one
  | releasedAgain he hk ha => exact (deed_releasedAgain he hk ha).one
  | ended hauto hk => exact (deeds_completed hc hk _ _).trans (Deed.emit _).one
  | endedAgain hauto hk =>
    exact .next (Deed.complete (Role.ofFrame?_ackBytes ..) hk) (Deed.emit _).one

theorem Handles.deeds (hc : c.session.WF) {p : Packet} (hop : op = .receive p ∨ op = .handle p)
    (h : Handles c p acts c') : Deeds c op c.session.ledger acts c'.session.ledger := by
  cases h with
  | connAck h => exact h.deeds hc hop
  | publish h => exact h.deeds
  | ack h => exact h.deeds hc
  | subAck =>
    rw [Session.ledger_completeSubscribe]
    exact (Deed.emit _).one
  | unsubAck =>
    rw [Session.ledger_completeUnsubscribe]
    exact (Deed.emit _).one
  | subAckUnknown | unsubAckUnknown | pingResp => exact .none _
  | closed =>
    refine (Deed.quiet ?_).one
    split <;> simp [Action.Quiet, Action.frame?, Action.change?]
  | clientOnly => exact deeds_failure _

/-! ### Connections -/

theorem Connects.deeds {o : ConnectOptions} {now : Nat} (h : Connects c o now acts c') :
    Deeds c op c.session.ledger acts c'.session.ledger := by
  cases h with
  | keeping hp hf hclean hexp => exact (Deed.packet hf (by simp [Role.ofPacket?])).one
  | forgetting hp hf hforget =>
    exact .next .forget (Deed.packet hf (by simp [Role.ofPacket?])).one

theorem Disconnects.deeds {now : Nat} (h : Disconnects c now acts c') :
    Deeds c op c.session.ledger acts c'.session.ledger := by
  have hclosed : ∀ l, Deed c op l [.emit .close, .close] l := fun l =>
    .quiet (by simp [Action.Quiet, Action.frame?, Action.change?])
  cases h with
  | keeping hconn hf hr =>
    rw [show ({ c.session.dropRequests with endedAt := some now } : Session).ledger =
      c.session.ledger from Session.ledger_dropRequests _]
    exact .next (Deed.packet hf (by simp [Role.ofPacket?])) (hclosed _).one
  | @forgetting frame hconn hf hr =>
    have hforgotten : Deeds c op c.session.ledger
        (.send frame :: Reaction.erasures c.session.ledger) c.session.ledger.clear :=
      .next (Deed.packet hf (by simp [Role.ofPacket?])) Deed.forget.one
    exact hforgotten.trans (hclosed _).one

theorem Loses.deeds {now : Nat} (h : Loses c now acts c') :
    Deeds c op c.session.ledger acts c'.session.ledger := by
  cases h with
  | before => exact .none _
  | now hp =>
    rw [show ({ c.session.dropRequests with endedAt := some now } : Session).ledger =
      c.session.ledger from Session.ledger_dropRequests _]
    exact (Deed.emit _).one

theorem Pings.deeds (h : Pings c acts c') : Deeds c op c.session.ledger acts c'.session.ledger := by
  cases h with
  | sent hconn hf => exact (Deed.packet hf (by simp [Role.ofPacket?])).one
  | nothing => exact .none _

/-- What an operation does is a row of deeds. -/
theorem Steps.deeds (hc : c.session.WF) {a : Option UInt16} (h : Steps c op a acts c')
    (hop : ∀ id data, op ≠ .restore id data) :
    Deeds c op c.session.ledger acts c'.session.ledger := by
  cases h with
  | connect h => exact h.deeds
  | early => exact deeds_failure _
  | receive _ h => exact h.deeds hc (.inl rfl)
  | handle h => exact h.deeds hc (.inr rfl)
  | publish hconn h => exact h.deeds hconn
  | publishWithId hconn _ _ h => exact h.deeds hconn
  | subscribe _ h => exact h.deeds
  | subscribeWithId _ _ h => exact h.deeds
  | unsubscribe _ h => exact h.deeds
  | unsubscribeWithId _ _ h => exact h.deeds
  | acknowledge _ h => exact h.deeds hc rfl
  | abandon h => exact h.deeds hc
  | ping h => exact h.deeds
  | disconnect h => exact h.deeds
  | connectionLost h => exact h.deeds
  | restore h => exact absurd rfl (hop _ _)

/-- An operation that takes in no record does a row of deeds. -/
theorem deeds_step (hc : c.WF) (hop : ∀ id data, op ≠ .restore id data) :
    Deeds c op c.session.ledger (c.step op).actions (c.step op).client.session.ledger := by
  rcases step_cases hc op with ⟨e, h⟩ | ⟨a, acts, c', h, hs⟩ <;> rw [h]
  · exact .none _
  · exact hs.deeds hc.session hop

/-! ## Runs -/

theorem Deed.follow (hl : l.WF) (h : Deed c op l acts m) :
    (Sink.ofLedger l).followAll (changesOf acts) = some (Sink.ofLedger m) := by
  cases h with
  | quiet h =>
    have hnone : changesOf acts = [] := List.filterMap_eq_nil_iff.2 fun a ha => (h a ha).2
    rw [hnone]
    rfl
  | plain | answer | repeated | complete | refuse => rfl
  | start _ _ _ _ h => exact (Sink.followAll_one _ _).trans (Sink.follow_started h)
  | release _ _ h => exact (Sink.followAll_one _ _).trans (Sink.follow_moved hl h)
  | convert _ _ _ _ h => exact (Sink.followAll_one _ _).trans (Sink.follow_moved hl h)
  | finish hk => exact (Sink.followAll_one _ _).trans (Sink.follow_erase hl hk)
  | forget =>
    rw [changesOf_erasures]
    exact Sink.followAll_erasures hl

/-- No operation takes in a record. -/
def Unrestored (ops : List Op) : Prop := ∀ id data, .restore id data ∉ ops

theorem Unrestored.head {ops : List Op} (h : Unrestored (op :: ops)) :
    ∀ id data, op ≠ .restore id data :=
  fun id data heq => h id data (heq ▸ List.mem_cons_self)

theorem Unrestored.tail {ops : List Op} (h : Unrestored (op :: ops)) : Unrestored ops :=
  fun id data hmem => h id data (List.mem_cons_of_mem _ hmem)

theorem faithful_after {ops : List Op} (hc : c.WF) (hf : c.session.ledger.Faithful)
    (hops : Unrestored ops) : (c.after ops).session.ledger.Faithful := by
  induction ops generalizing c with
  | nil => exact hf
  | cons op ops ih =>
    have hstep := (deeds_step hc hops.head).faithful hc.session.ledger hf
    exact ih (wf_step hc op) hstep hops.tail

/-- The records that a new client leaves are those of its exchanges in flight. -/
theorem sink_after (options : ClientOptions) {ops : List Op} (hops : Unrestored ops) :
    Sink.empty.applyAll (changesOf ((new options).actionsOf ops)) =
      Sink.ofLedger ((new options).after ops).session.ledger := by
  rw [← history_eq hops]
  exact Sink.applyAll_of_followAll (follow_after (wf_new options) ops)

theorem faithful_new (options : ClientOptions) : (new options).session.ledger.Faithful := by
  intro e he
  simp [new, Session.empty] at he

end Client

end Mqtt
