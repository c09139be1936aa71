import Mqtt.Proofs.Client.Deeds

/-!
# Where frames and exchanges come from

A predicate on exchanges is sustained by an operation (`Sustains`) if it holds of every exchange
that the operation starts, and of every exchange that it moves on or converts if it held before.
Then it holds of every exchange afterwards and of every record that is stored or updated, and each
frame that the operation writes has one of few origins: it is that of a packet or an acknowledgment
that the operation makes, or an exchange has retained it (`Stems`). `Steps.bears` says so of every
operation, and `Throughout.ledger` of the exchanges after a run.
-/

namespace Mqtt

/-- A predicate holds of every exchange in flight. -/
def Ledger.All (Q : Exchange → Prop) (l : Ledger) : Prop := ∀ e ∈ l.toList, Q e

namespace Ledger.All

variable {Q : Exchange → Prop} {l m : Ledger} {e e' : Exchange}

theorem clear (l : Ledger) : l.clear.All Q := by simp [All]

theorem started (h : l.All Q) (he : Q e) (hl : Started l e m) : m.All Q := by
  intro x hx
  rw [hl.toList, List.mem_append, List.mem_singleton] at hx
  rcases hx with hx | rfl
  · exact h x hx
  · exact he

theorem moved (h : l.All Q) (he : Q e') (hl : Moved l e e' m) : m.All Q := by
  intro x hx
  rw [hl.toList, List.mem_map] at hx
  obtain ⟨y, hy, rfl⟩ := hx
  split
  · exact he
  · exact h y hy

theorem erase (hl : l.WF) (h : l.All Q) (k : Key) : (l.erase k).All Q := by
  intro x hx
  rw [toList_erase hl] at hx
  exact h x (List.mem_filter.1 hx).1

theorem complete {s : Session} (hs : s.WF) (h : s.ledger.All Q) (k : Key) :
    (s.complete k).2.ledger.All Q := by
  rw [hs.complete_eq]
  split
  · exact erase hs.ledger h k
  · exact h

end Ledger.All

namespace Exchange

/-- The exchange of a message that was just published retains PUBLISH. -/
theorem retains_published (id : UInt16) (qos : QoS) (frame : Bytes) (v : Version) :
    (Exchange.mk id .outbound (Client.Reaction.firstAwaited qos) qos frame v).retains =
      .publish := by
  cases qos <;> rfl

end Exchange

/-- No exchange is started or moved on when the acknowledgment is sent. -/
def AckKind.Loose (kind : AckKind) (reason : Reason) : Prop :=
  kind = .pubAck ∨ kind = .pubComp ∨ kind = .pubRec ∧ reason.isError

namespace Client

/-! ## What an operation makes -/

namespace Op

/-- The operation is to publish a message. -/
inductive Publishing : Op → Publish → Prop
  | publish (p : Publish) : Publishing (.request (.publish p)) p
  | publishWithId (id : UInt16) (p : Publish) :
      Publishing (.request (.publishWithId id p)) { p with id := some id }

/-- The operation is to subscribe to topic filters. -/
inductive Subscribing : Op → List TopicFilter → Prop
  | subscribe (filters : List TopicFilter) (asked : Option UInt16) :
      Subscribing (.request (.subscribe filters asked)) filters
  | subscribeWithId (id : UInt16) (filter : TopicFilter) :
      Subscribing (.request (.subscribeWithId id filter)) [filter]

/-- The operation is to unsubscribe from a topic filter. -/
inductive Unsubscribing : Op → String → Prop
  | unsubscribe (filter : String) : Unsubscribing (.request (.unsubscribe filter)) filter
  | unsubscribeWithId (id : UInt16) (filter : String) :
      Unsubscribing (.request (.unsubscribeWithId id filter)) filter

/-- The operation calls for an acknowledgment, be it the first time or again. -/
inductive CallsFor : Op → AckKind → UInt16 → Prop
  | byHand (kind : AckKind) (id : UInt16) (reason : Reason) :
      CallsFor (.request (.acknowledge kind id reason)) kind id
  | received {op : Op} {p : Publish} {id : UInt16}
      (hop : op = .receive (.publish p) ∨ op = .handle (.publish p)) (hq : p.qos = .exactlyOnce)
      (hid : p.id = some id) : CallsFor op .pubRec id
  | released {op : Op} {a : Ack}
      (hop : op = .receive (.ack .pubRec a) ∨ op = .handle (.ack .pubRec a)) :
      CallsFor op .pubRel a.id

end Op

/-- The operation makes an acknowledgment, by hand or in answer to a packet. -/
inductive Gives (c : Client) : Op → AckKind → UInt16 → Reason → Prop
  | byHand (kind : AckKind) (id : UInt16) (reason : Reason) :
      Gives c (.request (.acknowledge kind id reason)) kind id reason
  | received {op : Op} {p : Publish} {kind : AckKind} {id : UInt16} (hauto : c.options.autoAck)
      (hop : op = .receive (.publish p) ∨ op = .handle (.publish p)) (hid : p.id = some id)
      (hk : p.qos = .atLeastOnce ∧ kind = .pubAck ∨ p.qos = .exactlyOnce ∧ kind = .pubRec) :
      Gives c op kind id .success
  | released {op : Op} {a : Ack} (hauto : c.options.autoAck)
      (hop : op = .receive (.ack .pubRec a) ∨ op = .handle (.ack .pubRec a)) :
      Gives c op .pubRel a.id .success
  | ended {op : Op} {a : Ack} {reason : Reason} (hauto : c.options.autoAck)
      (hop : op = .receive (.ack .pubRel a) ∨ op = .handle (.ack .pubRel a))
      (hr : reason = .success ∨ reason = .packetIdentifierNotFound) :
      Gives c op .pubComp a.id reason

/-- A packet that an operation makes, unless it is an acknowledgment. -/
inductive Makes (c : Client) : Op → Packet → Prop
  | connect (o : ConnectOptions) (now : Nat) : Makes c (.connect o now) (.connect (.ofOptions o))
  | publish {op : Op} {p : Publish} {id : Option UInt16} (hop : op.Publishing p)
      (honce : p.qos = .atMostOnce → id = none)
      (htracked : p.qos ≠ .atMostOnce → ∃ i, i ≠ 0 ∧ id = some i) :
      Makes c op (.publish { p with version := c.version, dup := false, id })
  | subscribe {op : Op} {filters : List TopicFilter} {id : UInt16} (hop : op.Subscribing filters)
      (hid : id ≠ 0) (hne : filters ≠ []) :
      Makes c op (.subscribe ⟨id, filters, .empty, c.version⟩)
  | unsubscribe {op : Op} {filter : String} (hop : op.Unsubscribing filter) (id : UInt16) :
      Makes c op (.unsubscribe ⟨id, [filter], .empty, c.version⟩)
  | pingReq : Makes c .ping .pingReq
  | disconnect (now : Nat) : Makes c (.disconnect now) (.disconnect (.normal c.version))

/-- The predicate holds of the exchanges that an operation starts, and it keeps holding of those
that the operation changes. -/
structure Sustains (c : Client) (op : Op) (Q : Exchange → Prop) : Prop where
  publish : ∀ ⦃p id frame⦄, op.Publishing p → p.qos ≠ .atMostOnce → id ≠ 0 →
    (Packet.publish { p with version := c.version, dup := false, id := some id }).toBytes =
      .ok frame → Q ⟨id, .outbound, Reaction.firstAwaited p.qos, p.qos, frame, c.version⟩
  receipt : ∀ ⦃id reason⦄, c.Gives op .pubRec id reason → id ≠ 0 → reason.isError = false →
    Q (.receipt c.version id reason)
  release : ∀ ⦃e reason⦄, e ∈ c.session.ledger.toList → Q e → e.check = .ok () →
    e.direction = .outbound → e.awaits = .pubRec → c.Gives op .pubRel e.id reason →
    Q (e.released c.version reason)
  convert : ∀ ⦃e frame⦄, c.Resuming op → Q e → e.check = .ok () → e.direction = .outbound →
    e.version ≠ c.version → Retained.convert e.frame e.version c.version = .ok frame →
    Q (e.reframed frame c.version)
  restore : ∀ ⦃id data e⦄, op = .restore id data → Record.decode id data = .ok e → Q e

/-- Where an action comes from, if `Q` holds of the exchanges. -/
inductive Stems (c : Client) (op : Op) (Q : Exchange → Prop) : Action → Prop
  | quiet {a : Action} (h : a.Quiet) : Stems c op Q a
  | started {e : Exchange} (he : Q e) : Stems c op Q (.persist (.started e))
  | moved {e : Exchange} (he : Q e) : Stems c op Q (.persist (.moved e))
  | erase (k : Key) : Stems c op Q (.persist (.erase k))
  | packet {p : Packet} {frame : Bytes} (hp : c.Makes op p) (hf : p.toBytes = .ok frame) :
      Stems c op Q (.send frame)
  | ack {kind : AckKind} {id : UInt16} {reason : Reason} (h : c.Gives op kind id reason)
      (hid : id = 0 → kind.Loose reason) :
      Stems c op Q (.send (Retained.ackBytes c.version kind id reason))
  /-- A retained PUBREC or PUBREL is written again. -/
  | retained {e : Exchange} {kind : AckKind} (hop : op.CallsFor kind e.id)
      (hr : e.retains = kind.packetType) (hmem : e ∈ c.session.ledger.toList) (he : Q e)
      (hcheck : e.check = .ok ()) : Stems c op Q (.send e.frame)
  /-- A published message is sent again, or its PUBREL, with the session resumed. -/
  | replay {e : Exchange} (hop : c.Resuming op) (he : Q e) (hcheck : e.check = .ok ())
      (hd : e.direction = .outbound) (hv : e.version = c.version) : Stems c op Q (.send e.replay)

/-- The actions of an operation have their origins, and the predicate holds of every exchange
afterwards. -/
structure Bears (c : Client) (op : Op) (Q : Exchange → Prop) (acts : List Action) (c' : Client) :
    Prop where
  stems : ∀ a ∈ acts, c.Stems op Q a
  ledger : c'.session.ledger.All Q

variable {c c' : Client} {op : Op} {Q : Exchange → Prop} {acts : List Action}

theorem Action.mem_frames {frame : Bytes} :
    frame ∈ acts.filterMap frame? ↔ .send frame ∈ acts := by
  rw [List.mem_filterMap]
  constructor
  · rintro ⟨a, ha, hframe⟩
    cases a with
    | send =>
      cases hframe
      exact ha
    | emit | persist | keepAlive | close => cases hframe
  · exact fun h => ⟨_, h, rfl⟩

theorem Stems.emit (v : Event) : c.Stems op Q (.emit v) := .quiet ⟨rfl, rfl⟩

theorem Stems.close : c.Stems op Q .close := .quiet ⟨rfl, rfl⟩

/-! ## Requests -/

section Requests

variable (hs : c.Sustains op Q) (hl : c.session.ledger.All Q)
include hs hl

theorem Publishes.bears (hc : c.session.WF) {p : Publish} {a : Option UInt16}
    (hop : op.Publishing p) (h : Publishes c p a acts c') : c.Bears op Q acts c' := by
  cases h with
  | once hq hf =>
    have hmakes : c.Makes op (.publish { p with version := c.version, dup := false, id := none }) :=
      .publish hop (fun _ => rfl) (absurd hq)
    exact ⟨by simpa using .packet hmakes hf, hl⟩
  | @tracked id ids e l hq hid hf he hcheck hst =>
    have hne : id ≠ 0 := (IdPool.hands_of_claim hc.ids hid).ne_zero
    have hmakes : c.Makes op
        (.publish { p with version := c.version, dup := false, id := some id }) :=
      .publish hop (fun h => absurd h hq) fun _ => ⟨id, hne, rfl⟩
    have hstarted : Q e := he ▸ hs.publish hop hq hne hf
    exact ⟨by simpa using ⟨.started hstarted, .packet hmakes hf⟩, hl.started hstarted hst⟩

omit hs

theorem Subscribes.bears (hc : c.session.WF) {filters : List TopicFilter} {asked : Option UInt16}
    {id : UInt16} (hop : op.Subscribing filters) (h : Subscribes c filters asked id acts c') :
    c.Bears op Q acts c' := by
  cases h with
  | sent hne hid hf =>
    have hne' := (IdPool.hands_of_claim hc.ids hid).ne_zero
    exact ⟨by simpa using .packet (.subscribe hop hne' hne) hf, hl⟩

theorem Unsubscribes.bears {filter : String} {asked : Option UInt16} {id : UInt16}
    (hop : op.Unsubscribing filter) (h : Unsubscribes c filter asked id acts c') :
    c.Bears op Q acts c' := by
  cases h with
  | sent hid hf => exact ⟨by simpa using .packet (.unsubscribe hop id) hf, hl⟩

/-- A retained PUBREC is written again. -/
theorem stems_receipt (hc : c.session.WF) {e : Exchange} {id : UInt16}
    (hop : op.CallsFor .pubRec id) (he : e ∈ c.session.ledger.toList) (hk : e.key = .inbound id) :
    c.Stems op Q (.send e.frame) := by
  obtain ⟨rfl, hd⟩ := Exchange.key_eq_inbound.1 hk
  exact .retained hop (Exchange.retains_inbound hd) he (hl e he) (hc.checks e he)

/-- A retained PUBREL is written again. -/
theorem stems_released (hc : c.session.WF) {e : Exchange} {id : UInt16}
    (hop : op.CallsFor .pubRel id) (he : e ∈ c.session.ledger.toList) (hk : e.key = .outbound id)
    (ha : e.awaits = .pubComp) :
    c.Stems op Q (.send e.frame) := by
  obtain ⟨rfl, hd⟩ := Exchange.key_eq_outbound.1 hk
  refine .retained hop ?_ he (hl e he) (hc.checks e he)
  rw [Exchange.retains_outbound hd, if_pos ha]
  rfl

include hs

/-- An exchange is released, with PUBREL. -/
theorem bears_released (hc : c.session.WF) {e : Exchange} {id : UInt16}
    {reason : Reason} {l : Ledger} (hgives : c.Gives op .pubRel id reason)
    (hk : e.key = .outbound id) (ha : e.awaits = .pubRec)
    (hm : Ledger.Moved c.session.ledger e (e.released c.version reason) l) :
    c.Bears op Q [.persist (.moved (e.released c.version reason)),
      .send (Retained.ackBytes c.version .pubRel id reason)]
      { c with session := { c.session with ledger := l } } := by
  obtain ⟨rfl, hd⟩ := Exchange.key_eq_outbound.1 hk
  have hreleased : Q (e.released c.version reason) :=
    hs.release hm.mem (hl e hm.mem) (hc.checks e hm.mem) hd ha hgives
  have hid : e.id ≠ 0 := (Exchange.check_eq_ok_iff.1 (hc.checks e hm.mem)).1
  exact ⟨by simpa using ⟨.moved hreleased, .ack hgives fun h => absurd h hid⟩,
    hl.moved hreleased hm⟩

theorem Acknowledges.bears (hc : c.session.WF) {id : UInt16} {reason : Reason} {kind : AckKind}
    (hop : op = .request (.acknowledge kind id reason))
    (h : Acknowledges c id reason kind acts c') : c.Bears op Q acts c' := by
  subst hop
  have hgives := Gives.byHand (c := c) kind id reason
  have hcalls := Op.CallsFor.byHand kind id reason
  cases h with
  | pubAck => exact ⟨by simpa using .ack hgives fun _ => .inl rfl, hl⟩
  | pubRecRefusal _ hr => exact ⟨by simpa using .ack hgives fun _ => .inr (.inr ⟨rfl, hr⟩), hl⟩
  | pubCompAgain => exact ⟨by simpa using .ack hgives fun _ => .inr (.inl rfl), hl⟩
  | pubRecAgain he hk => exact ⟨by simpa using stems_receipt hl hc hcalls he hk, hl⟩
  | pubRec hid hr hst =>
    have hreceipt := hs.receipt hgives hid hr
    exact ⟨by simpa using ⟨.started hreceipt, .ack hgives fun h => absurd h hid⟩,
      hl.started hreceipt hst⟩
  | pubRel hk ha hm => exact bears_released hs hl hc hgives hk ha hm
  | pubRelAgain he hk ha => exact ⟨by simpa using stems_released hl hc hcalls he hk ha, hl⟩
  | pubComp hk =>
    exact ⟨by simpa using ⟨.erase _, .ack hgives fun _ => .inr (.inl rfl)⟩, .complete hc hl _⟩

omit hs

theorem Abandons.bears (hc : c.session.WF) {id : UInt16} (h : Abandons c id acts c') :
    c.Bears op Q acts c' := by
  cases h with
  | message he hk hr => exact ⟨by simpa using .erase _, .complete hc hl _⟩
  | nothing h => exact ⟨by simp, hl⟩

end Requests

/-! ## Packets -/

theorem stems_failure (e : Error) : ∀ a ∈ failure e, c.Stems op Q a := by
  simpa [failure] using ⟨.emit _, .close⟩

theorem stems_failureOf (r : Except Error Unit) : ∀ a ∈ failureOf r, c.Stems op Q a := by
  cases r with
  | ok u => simp [failureOf]
  | error e => exact stems_failure e

theorem stems_erasures (l : Ledger) : ∀ a ∈ Reaction.erasures l, c.Stems op Q a := by
  intro a ha
  obtain ⟨k, -, rfl⟩ := List.mem_map.1 ha
  exact .erase k

theorem stems_greeting (p : ConnAck) : ∀ a ∈ c.greeting p, c.Stems op Q a := by
  intro a ha
  refine .quiet ?_
  unfold greeting at ha
  split at ha <;> simp at ha
  · rcases ha with rfl | rfl <;> exact ⟨rfl, rfl⟩
  · rw [ha]
    exact ⟨rfl, rfl⟩

section Packets

variable (hs : c.Sustains op Q)
include hs

/-- The client `d` is `c` in the middle of the operation. -/
theorem Resumes.bears {d d' : Client} (hop : c.Resuming op) (hv : d.version = c.version)
    (hwf : d.session.WF) (hl : d.session.ledger.All Q) {e : Exchange} {r : Except Error Unit}
    (he : e ∈ d.session.ledger.toList) (hd : e.direction = .outbound)
    (h : Resumes d e r acts d') : c.Bears op Q acts d' := by
  have hcheck := hwf.checks e he
  cases h with
  | current hcur =>
    have hreplay : c.Stems op Q (.send e.replay) :=
      .replay hop (hl e he) hcheck hd (hcur.trans hv)
    exact ⟨by simpa using hreplay, hl⟩
  | @converted frame l hne hf hm =>
    rw [hv] at hne hf hm ⊢
    have hq : Q (e.reframed frame c.version) := hs.convert hop (hl e he) hcheck hd hne hf
    have hcheck' : (e.reframed frame c.version).check = .ok () :=
      Exchange.check_reframed c.version hcheck (Retained.type_of_convert hf)
    exact ⟨by simpa using ⟨.moved hq, .replay hop hq hcheck' hd rfl⟩, hl.moved hq hm⟩
  | stuck => exact ⟨by simp, hl⟩

theorem Replays.bears {d d' : Client} (hop : c.Resuming op) {ks : List Key} {r : Except Error Unit}
    (h : Replays d ks r acts d') (hv : d.version = c.version) (hwf : d.session.WF)
    (hl : d.session.ledger.All Q) : c.Bears op Q acts d' := by
  induction h with
  | done => exact ⟨by simp, hl⟩
  | next he hd h _ ih =>
    have hfirst := h.bears hs hop hv hwf hl he hd
    have hrest := ih ((congrArg Client.version h.frame).trans hv) (h.wf hwf he) hfirst.ledger
    exact ⟨List.forall_mem_append.2 ⟨hfirst.stems, hrest.stems⟩, hrest.ledger⟩
  | stop he hd h => exact h.bears hs hop hv hwf hl he hd

variable (hl : c.session.ledger.All Q)
include hl

theorem Joins.bears (hc : c.session.WF) {p : ConnAck}
    (hop : op = .receive (.connAck p) ∨ op = .handle (.connAck p)) (h : Joins c p acts c') :
    c.Bears op Q acts c' := by
  have hledger : (c.welcomed p).session.ledger = c.session.ledger := by
    rw [Reaction.welcomed_session]
  cases h with
  | unexpected => exact ⟨stems_failure _, hl⟩
  | refused => exact ⟨by simpa using ⟨.emit _, .emit _, .close⟩, hl⟩
  | fresh => exact ⟨List.forall_mem_append.2 ⟨stems_erasures _, stems_greeting p⟩, .clear _⟩
  | resumed hp hr hsp h =>
    have hreplay := h.bears hs ⟨p, hop, hp, hr, hsp⟩ (version_welcomed p)
      (Reaction.wf_welcomed hc p) (hledger ▸ hl)
    have hgreeted := List.forall_mem_append.2 ⟨stems_greeting p, hreplay.stems⟩
    exact ⟨List.forall_mem_append.2 ⟨hgreeted, stems_failureOf _⟩, hreplay.ledger⟩

theorem Receives.bears (hc : c.session.WF) {p : Publish}
    (hop : op = .receive (.publish p) ∨ op = .handle (.publish p))
    (h : Receives c p acts c') : c.Bears op Q acts c' := by
  cases h with
  | plain | manual => exact ⟨by simpa using .emit _, hl⟩
  | once hq hid hauto =>
    have hgives := Gives.received hauto hop hid (.inl ⟨hq, rfl⟩)
    exact ⟨by simpa using ⟨.emit _, .ack hgives fun _ => .inl rfl⟩, hl⟩
  | tracked hq hid hauto hne hst =>
    have hgives := Gives.received hauto hop hid (.inr ⟨hq, rfl⟩)
    have hreceipt := hs.receipt hgives hne rfl
    exact ⟨by simpa using ⟨.emit _, .started hreceipt, .ack hgives fun h => absurd h hne⟩,
      hl.started hreceipt hst⟩
  | zero => exact ⟨List.forall_mem_cons.2 ⟨.emit _, stems_failure _⟩, hl⟩
  | repeated hq hid he hk =>
    exact ⟨by simpa using stems_receipt hl hc (.received hop hq hid) he hk, hl⟩

theorem Continues.bears (hc : c.session.WF) {kind : AckKind} {a : Ack}
    (hop : op = .receive (.ack kind a) ∨ op = .handle (.ack kind a))
    (h : Continues c a kind acts c') : c.Bears op Q acts c' := by
  cases h with
  | unsolicited => exact ⟨by simp, hl⟩
  | outOfOrder => exact ⟨stems_failure _, hl⟩
  | settled => exact ⟨by simpa using ⟨.erase _, .emit _⟩, .complete hc hl _⟩
  | released hk ha hr hauto hm =>
    have hreleased := bears_released hs hl hc (.released hauto hop) hk ha hm
    have hemit : ∀ x ∈ [Action.emit (.ack .pubRec a.id a.reason)], c.Stems op Q x := by
      simpa using .emit _
    exact ⟨List.forall_mem_append.2 ⟨hreleased.stems, hemit⟩, hreleased.ledger⟩
  | noted | endNoted => exact ⟨by simpa using .emit _, hl⟩
  | releasedAgain he hk ha =>
    exact ⟨by simpa using stems_released hl hc (.released hop) he hk ha, hl⟩
  | ended hauto =>
    have hgives := Gives.ended hauto hop (.inl rfl)
    exact ⟨by simpa using ⟨.erase _, .ack hgives fun _ => .inr (.inl rfl), .emit _⟩,
      .complete hc hl _⟩
  | endedAgain hauto =>
    have hgives := Gives.ended hauto hop (.inr rfl)
    exact ⟨by simpa using ⟨.ack hgives fun _ => .inr (.inl rfl), .emit _⟩, hl⟩

theorem Handles.bears (hc : c.session.WF) {p : Packet} (hop : op = .receive p ∨ op = .handle p)
    (h : Handles c p acts c') :
    c.Bears op Q acts c' := by
  cases h with
  | connAck h => exact h.bears hs hl hc hop
  | publish h => exact h.bears hs hl hc hop
  | ack h => exact h.bears hs hl hc hop
  | subAck => exact ⟨by simpa using .emit _, by rwa [Session.ledger_completeSubscribe]⟩
  | unsubAck => exact ⟨by simpa using .emit _, by rwa [Session.ledger_completeUnsubscribe]⟩
  | subAckUnknown | unsubAckUnknown | pingResp => exact ⟨by simp, hl⟩
  | closed =>
    refine ⟨fun a ha => .quiet ?_, hl⟩
    split at ha <;> simp at ha
    · rcases ha with rfl | rfl <;> exact ⟨rfl, rfl⟩
    · rw [ha]
      exact ⟨rfl, rfl⟩
  | clientOnly => exact ⟨stems_failure _, hl⟩

end Packets

/-! ## Connections -/

section Connections

variable (hl : c.session.ledger.All Q)
include hl

theorem Connects.bears {o : ConnectOptions} {now : Nat} (hop : op = .connect o now)
    (h : Connects c o now acts c') : c.Bears op Q acts c' := by
  subst hop
  have hmakes : c.Makes (.connect o now) _ := .connect o now
  cases h with
  | keeping hp hf => exact ⟨by simpa using .packet hmakes hf, hl⟩
  | @forgetting frame hp hf =>
    have hsend : ∀ a ∈ [Action.send frame], c.Stems (.connect o now) Q a := by
      simpa using .packet hmakes hf
    exact ⟨List.forall_mem_append.2 ⟨stems_erasures _, hsend⟩, .clear _⟩

theorem Disconnects.bears {now : Nat} (hop : op = .disconnect now) (h : Disconnects c now acts c') :
    c.Bears op Q acts c' := by
  subst hop
  have hmakes : c.Makes (.disconnect now) _ := .disconnect now
  cases h with
  | keeping hconn hf hr =>
    refine ⟨by simpa using ⟨.packet hmakes hf, .emit _, .close⟩, ?_⟩
    change c.session.dropRequests.ledger.All Q
    rwa [Session.ledger_dropRequests]
  | forgetting hconn hf hr =>
    have hclosed : ∀ a ∈ [Action.emit .close, .close], c.Stems (.disconnect now) Q a := by
      simpa using ⟨.emit _, .close⟩
    exact ⟨List.forall_mem_append.2
      ⟨List.forall_mem_cons.2 ⟨.packet hmakes hf, stems_erasures _⟩, hclosed⟩, .clear _⟩

theorem Loses.bears {now : Nat} (h : Loses c now acts c') : c.Bears op Q acts c' := by
  cases h with
  | before => exact ⟨by simp, hl⟩
  | now hp =>
    refine ⟨by simpa using .emit _, ?_⟩
    change c.session.dropRequests.ledger.All Q
    rwa [Session.ledger_dropRequests]

theorem Pings.bears (hop : op = .ping) (h : Pings c acts c') : c.Bears op Q acts c' := by
  subst hop
  cases h with
  | sent hconn hf => exact ⟨by simpa using .packet .pingReq hf, hl⟩
  | nothing => exact ⟨by simp, hl⟩

theorem Restores.bears (hc : c.session.WF) (hs : c.Sustains op Q) {id : UInt16} {data : Bytes}
    (hop : op = .restore id data) (h : Restores c id data acts c') : c.Bears op Q acts c' := by
  cases h with
  | record hp hd hrestore =>
    obtain ⟨ids, l, rfl, hinsert, -⟩ := Session.restore_inv hrestore
    exact ⟨by simp, hl.started (hs.restore hop hd) (Ledger.started_of_insert hc.ledger hinsert)⟩

end Connections

/-! ## All operations -/

/-- What an operation does comes from the operation or from the exchanges. -/
theorem Steps.bears (hc : c.session.WF) (hs : c.Sustains op Q) (hl : c.session.ledger.All Q)
    {a : Option UInt16} (h : Steps c op a acts c') : c.Bears op Q acts c' := by
  cases h with
  | connect h => exact h.bears hl rfl
  | early => exact ⟨stems_failure _, hl⟩
  | receive _ h => exact h.bears hs hl hc (.inl rfl)
  | handle h => exact h.bears hs hl hc (.inr rfl)
  | publish _ h => exact h.bears hs hl hc (.publish _)
  | publishWithId _ _ _ h => exact h.bears hs hl hc (.publishWithId _ _)
  | subscribe _ h => exact h.bears hl hc (.subscribe _ _)
  | subscribeWithId _ _ h => exact h.bears hl hc (.subscribeWithId _ _)
  | unsubscribe _ h => exact h.bears hl (.unsubscribe _)
  | unsubscribeWithId _ _ h => exact h.bears hl (.unsubscribeWithId _ _)
  | acknowledge _ h => exact h.bears hs hl hc rfl
  | abandon h => exact h.bears hl hc
  | ping h => exact h.bears hl rfl
  | disconnect h => exact h.bears hl rfl
  | connectionLost h => exact h.bears hl
  | restore h => exact h.bears hl hc hs rfl

theorem bears_step (hc : c.WF) (hs : c.Sustains op Q) (hl : c.session.ledger.All Q) :
    c.Bears op Q (c.step op).actions (c.step op).client := by
  rcases step_cases hc op with ⟨e, h⟩ | ⟨a, acts, c', h, hsteps⟩ <;> rw [h]
  · exact ⟨by simp, hl⟩
  · exact hsteps.bears hc.session hs hl

/-- Only CONNECT is written to start a connection. -/
theorem toBytes_of_connect (hc : c.WF) {o : ConnectOptions} {now : Nat} {frame : Bytes}
    (h : .send frame ∈ (c.step (.connect o now)).actions) :
    (Packet.connect (.ofOptions o)).toBytes = .ok frame := by
  rcases step_cases hc (.connect o now) with ⟨e, hstep⟩ | ⟨a, acts, c', hstep, hs⟩ <;>
    rw [hstep] at h
  · cases h
  cases hs with
  | connect hs =>
    cases hs with
    | keeping hp hf =>
      obtain rfl := by simpa using h
      exact hf
    | forgetting hp hf =>
      obtain rfl := by simpa [Reaction.erasures] using h
      exact hf

/-! ## The version -/

theorem Handles.version {p : Packet} (h : Handles c p acts c') : c'.version = c.version := by
  cases h with
  | connAck h =>
    cases h with
    | unexpected | refused => rfl
    | fresh => exact version_welcomed _
    | resumed hp hr hs h => exact (congrArg Client.version h.frame).trans (version_welcomed _)
  | publish h => cases h <;> rfl
  | ack h => cases h <;> rfl
  | subAck | subAckUnknown | unsubAck | unsubAckUnknown | pingResp | closed | clientOnly => rfl

theorem Steps.version {a : Option UInt16} (h : Steps c op a acts c')
    (hop : ∀ o now, op ≠ .connect o now) : c'.version = c.version := by
  cases h with
  | connect => exact absurd rfl (hop _ _)
  | receive _ h | handle h => exact h.version
  | early => rfl
  | publish _ h | publishWithId _ _ _ h => cases h <;> rfl
  | subscribe _ h | subscribeWithId _ _ h => cases h; rfl
  | unsubscribe _ h | unsubscribeWithId _ _ h => cases h; rfl
  | acknowledge _ h => cases h <;> rfl
  | abandon h => cases h <;> rfl
  | ping h => cases h <;> rfl
  | disconnect h => cases h <;> rfl
  | connectionLost h => cases h <;> rfl
  | restore h => cases h; rfl

/-- Only a connection that is started chooses the version. -/
theorem version_step (hc : c.WF) (hop : ∀ o now, op ≠ .connect o now) :
    (c.step op).client.version = c.version := by
  rcases step_cases hc op with ⟨e, h⟩ | ⟨a, acts, c', h, hs⟩ <;> rw [h]
  exact hs.version hop

/-! ## Runs -/

/-- A frame that is sent is CONNECT, or it has its origin in `Stems` and the version stays. -/
theorem stems_of_send (hc : c.WF) (hs : c.Sustains op Q) (hl : c.session.ledger.All Q)
    {frame : Bytes} (hsend : .send frame ∈ (c.step op).actions) :
    (∃ o now, op = .connect o now ∧ (Packet.connect (.ofOptions o)).toBytes = .ok frame) ∨
      (∀ o now, op ≠ .connect o now) ∧ (c.step op).client.version = c.version ∧
        c.Stems op Q (.send frame) := by
  by_cases hconnect : ∃ o now, op = .connect o now
  · obtain ⟨o, now, rfl⟩ := hconnect
    exact .inl ⟨o, now, rfl, toBytes_of_connect hc hsend⟩
  · have hne : ∀ o now, op ≠ .connect o now := fun o now heq => hconnect ⟨o, now, heq⟩
    exact .inr ⟨hne, version_step hc hne, (bears_step hc hs hl).stems _ hsend⟩

/-- What every operation of a run sustains holds of all exchanges. -/
theorem Throughout.ledger {P : Client → Op → Prop} {options : ClientOptions} {ops : List Op}
    (h : (new options).Throughout P ops) (hs : ∀ {c op}, P c op → c.Sustains op Q) :
    ((new options).after ops).session.ledger.All Q :=
  h.invariant (I := fun c => c.session.ledger.All Q) (wf_new options)
    (by simp [Ledger.All, new, Session.empty])
    fun _ _ hc hop hl => (bears_step hc (hs hop) hl).ledger

end Client

end Mqtt
