import Mqtt.Proofs.Client.Survival

/-!
# Delivery exactly once

With automatic acknowledgment a QoS 2 message is delivered when its exchange starts, and not again
while that exchange is in flight. `watch` reads actions and keeps in mind whether there was a
delivery under an identifier whose exchange has not ended; it stops at a second one. Whatever
happens to a client it does not stop, since such an exchange is in the ledger: `watch_step` for one
operation, `watch_after` for any number of them.

`delivered_exactly_once` is what follows for two deliveries under one identifier, and what a single
PUBLISH does.
-/

namespace Mqtt

namespace Client

/-- Whether an action delivers a QoS 2 message with an identifier. -/
def Action.delivers (p : UInt16) : Action → Bool
  | .emit (.publish m) => m.qos = .exactlyOnce && m.id = some p
  | _ => false

variable {c c' : Client} {acts : List Action} {p : UInt16}

/-! ## What delivers a message -/

theorem not_mem_failure {m : Message} {e : Error} : .emit (.publish m) ∉ failure e := by
  simp [failure]

theorem Replays.quiet {ks : List Key} {r : Except Error Unit} (h : Replays c ks r acts c')
    (m : Message) : .emit (.publish m) ∉ acts := by
  induction h with
  | done => simp
  | next he hd h hs ih => cases h <;> simpa using ih
  | stop he hd h => cases h; simp

theorem Joins.quiet {q : ConnAck} (h : Joins c q acts c') (m : Message) :
    .emit (.publish m) ∉ acts := by
  have hgreeting : .emit (.publish m) ∉ c.greeting q := by
    unfold greeting
    split <;> simp
  cases h with
  | unexpected => exact not_mem_failure
  | refused => simp
  | fresh => simp [Reaction.erasures, hgreeting]
  | @resumed r _ _ hp hr hs h =>
    have hfailure : .emit (.publish m) ∉ failureOf r := by cases r <;> simp [failureOf, failure]
    simp [hgreeting, h.quiet m, hfailure]

theorem Continues.quiet {a : Ack} {kind : AckKind} (h : Continues c a kind acts c') (m : Message) :
    .emit (.publish m) ∉ acts := by
  cases h <;> simp [failure]

/-- Only a PUBLISH delivers messages. -/
theorem Handles.quiet {q : Packet} (h : Handles c q acts c') :
    (∀ m, .emit (.publish m) ∉ acts) ∨ ∃ x, q = .publish x ∧ Receives c x acts c' := by
  cases h with
  | connAck h => exact .inl h.quiet
  | publish h => exact .inr ⟨_, rfl, h⟩
  | ack h => exact .inl h.quiet
  | subAck | subAckUnknown | unsubAck | unsubAckUnknown | pingResp => exact .inl (by simp)
  | closed =>
    left
    intro m
    split <;> simp
  | clientOnly => exact .inl fun _ => not_mem_failure

theorem Steps.quiet {op : Op} {a : Option UInt16} (h : Steps c op a acts c') :
    (∀ m, .emit (.publish m) ∉ acts) ∨ ∃ x, Receives c x acts c' := by
  cases h with
  | receive _ h | handle h => exact h.quiet.imp_right fun ⟨x, _, h⟩ => ⟨x, h⟩
  | early => exact .inl fun _ => not_mem_failure
  | connect h => cases h <;> simp [Reaction.erasures]
  | publish _ h => cases h <;> simp
  | publishWithId _ _ _ h => cases h <;> simp
  | subscribe _ h => cases h; simp
  | subscribeWithId _ _ h => cases h; simp
  | unsubscribe _ h => cases h; simp
  | unsubscribeWithId _ _ h => cases h; simp
  | acknowledge _ h => cases h <;> simp
  | abandon h => cases h <;> simp
  | ping h => cases h <;> simp
  | disconnect h => cases h <;> simp [Reaction.erasures]
  | connectionLost h => cases h <;> simp
  | restore h => cases h; simp

/-- The actions of a delivery under an identifier, which starts its exchange. -/
structure Delivers (c : Client) (p : UInt16) (acts : List Action) (c' : Client) : Prop where
  acts : ∃ a frame, a.delivers p ∧
    acts = [a, .persist (.started (.receipt c.version p .success)), .send frame]
  fresh : Key.inbound p ∉ c.session.ledger.keys
  mem : Key.inbound p ∈ c'.session.ledger.keys

theorem Receives.delivers {q : Publish} (h : Receives c q acts c') (hauto : c.options.autoAck)
    (hp : p ≠ 0) : (∀ a ∈ acts, a.delivers p = false) ∨ c.Delivers p acts c' := by
  cases h with
  | plain h =>
    left
    rcases h with h | h <;> simp [Action.delivers, Message.ofPublish, h]
  | manual hid hmanual hk =>
    rw [hauto] at hmanual
    cases hmanual
  | once hq hid _ => exact .inl (by simp [Action.delivers, Message.ofPublish, hq])
  | @tracked id l hq hid _ hne hl =>
    by_cases hidp : id = p
    · subst hidp
      refine .inr ⟨⟨_, _, ?_, rfl⟩, hl.fresh, ?_⟩
      · simp [Action.delivers, Message.ofPublish, hq, hid]
      · simp [hl.keys]
    · exact .inl (by simp [Action.delivers, Message.ofPublish, hid, hidp])
  | zero hq hid _ hk =>
    exact .inl (by simp [Action.delivers, Message.ofPublish, hid, Ne.symm hp, failure])
  | repeated => exact .inl (by simp [Action.delivers])

theorem Steps.delivers {op : Op} {a : Option UInt16} (h : Steps c op a acts c')
    (hauto : c.options.autoAck) (hp : p ≠ 0) :
    (∀ a ∈ acts, a.delivers p = false) ∨ c.Delivers p acts c' := by
  rcases h.quiet with hquiet | ⟨q, hq⟩
  · left
    intro a ha
    cases a with
    | emit v =>
      cases v with
      | publish m => exact absurd ha (hquiet m)
      | connAck | ack | subAck | unsubAck | close | error => rfl
    | send | persist | keepAlive | close => rfl
  · exact hq.delivers hauto hp

/-! ## Watching deliveries -/

/-- Read an action: `isOpen` says whether there was a delivery under `p` whose exchange has not
ended. -/
def watch (p : UInt16) (isOpen : Bool) (a : Action) : Option Bool :=
  if a.delivers p then if isOpen then none else some true
  else if a = .persist (.erase (.inbound p)) then some false
  else some isOpen

/-- Without a delivery only the end of the exchange matters. -/
theorem watch_quiet (isOpen : Bool) (h : ∀ a ∈ acts, a.delivers p = false) :
    acts.foldlM (watch p) isOpen =
      some (isOpen && decide (.persist (.erase (.inbound p)) ∉ acts)) := by
  induction acts generalizing isOpen with
  | nil => simp
  | cons a acts ih =>
    have ha : a.delivers p = false := h a List.mem_cons_self
    have hacts : ∀ a ∈ acts, a.delivers p = false := fun a ha => h a (List.mem_cons_of_mem _ ha)
    rw [List.foldlM_cons, watch, if_neg (by simp [ha])]
    split
    · rename_i heq
      simp [ih _ hacts, heq]
    · rename_i hne
      simp [ih _ hacts, Ne.symm hne]

/-- An exchange whose end is not reported is still there. -/
theorem mem_keys_step (hc : c.WF) (op : Op) {k : Key} (hk : k ∈ c.session.ledger.keys)
    (h : .persist (.erase k) ∉ (c.step op).actions) :
    k ∈ (c.step op).client.session.ledger.keys := by
  obtain ⟨e, he, rfl⟩ := Ledger.mem_keys.1 hk
  refine ((edits_step hc op).retains hc.session).mem_keys he ?_
  rw [Session.outlasts, decide_eq_true_eq]
  exact fun hmem => h (persist_mem_of_erase_mem hmem)

/-- One operation does not deliver under an identifier while its exchange is in flight. -/
theorem watch_step (hc : c.WF) (hauto : c.options.autoAck) (hp : p ≠ 0) (op : Op) {isOpen : Bool}
    (hopen : isOpen → Key.inbound p ∈ c.session.ledger.keys) :
    ∃ isOpen', (c.step op).actions.foldlM (watch p) isOpen = some isOpen' ∧
      (isOpen' → Key.inbound p ∈ (c.step op).client.session.ledger.keys) := by
  have hquiet : (∀ a ∈ (c.step op).actions, a.delivers p = false) →
      ∃ isOpen', (c.step op).actions.foldlM (watch p) isOpen = some isOpen' ∧
        (isOpen' → Key.inbound p ∈ (c.step op).client.session.ledger.keys) := fun h => by
    refine ⟨_, watch_quiet isOpen h, fun hstill => ?_⟩
    rw [Bool.and_eq_true, decide_eq_true_eq] at hstill
    exact mem_keys_step hc op (hopen hstill.1) hstill.2
  rcases step_cases hc op with ⟨e, h⟩ | ⟨a, acts, c', h, hs⟩
  · exact hquiet (by simp [h])
  rcases hs.delivers hauto hp with hnone | hdelivers
  · exact hquiet (by simpa [h] using hnone)
  obtain ⟨a, frame, ha, rfl⟩ := hdelivers.acts
  have hclosed : isOpen = false := by
    cases isOpen with
    | true => exact absurd (hopen rfl) hdelivers.fresh
    | false => rfl
  refine ⟨true, ?_, fun _ => ?_⟩
  · have hdelivery : watch p false a = some true := by rw [watch, if_pos ha, if_neg (by simp)]
    rw [h, hclosed, List.foldlM_cons, hdelivery]
    rfl
  · rw [h]
    exact hdelivers.mem

theorem watch_after (hc : c.WF) (hauto : c.options.autoAck) (hp : p ≠ 0) (ops : List Op)
    {isOpen : Bool} (hopen : isOpen → Key.inbound p ∈ c.session.ledger.keys) :
    ((c.actionsOf ops).foldlM (watch p) isOpen).isSome := by
  induction ops generalizing c isOpen with
  | nil => rfl
  | cons op ops ih =>
    obtain ⟨isOpen', hstep, hopen'⟩ := watch_step hc hauto hp op hopen
    rw [actionsOf, List.foldlM_append, hstep]
    exact ih (wf_step hc op) (by rw [options_step hc op, hauto]) hopen'

/-- While an exchange is open, it stays open until its end. -/
theorem watch_open {isOpen : Bool} (hnot : .persist (.erase (.inbound p)) ∉ acts)
    (h : acts.foldlM (watch p) true = some isOpen) : isOpen = true := by
  induction acts with
  | nil =>
    cases h
    rfl
  | cons a acts ih =>
    rw [List.mem_cons, not_or] at hnot
    rw [List.foldlM_cons, watch, if_neg (Ne.symm hnot.1)] at h
    split at h
    · cases h
    · exact ih hnot.2 h

/-- Where `watch` does not stop, an exchange ends between two deliveries. -/
theorem erase_mem_of_watch {before between after : List Action} {d d' : Action} {isOpen : Bool}
    (h : ((before ++ d :: (between ++ d' :: after)).foldlM (watch p) isOpen).isSome)
    (hd : d.delivers p) (hd' : d'.delivers p) :
    .persist (.erase (.inbound p)) ∈ between := by
  by_contra hnot
  obtain ⟨last, h⟩ := Option.isSome_iff_exists.1 h
  rw [List.foldlM_append] at h
  obtain ⟨first, -, h⟩ := Option.bind_eq_some_iff.1 h
  rw [List.foldlM_cons] at h
  obtain ⟨opened, hopened, h⟩ := Option.bind_eq_some_iff.1 h
  have hopened : opened = true := by
    rw [watch, if_pos hd] at hopened
    split at hopened
    · cases hopened
    · exact (Option.some.inj hopened).symm
  rw [hopened, List.foldlM_append] at h
  obtain ⟨still, hstill, h⟩ := Option.bind_eq_some_iff.1 h
  rw [watch_open hnot hstill, List.foldlM_cons, watch, if_pos hd', if_pos rfl] at h
  cases h

/-! ## Exactly once -/

/-- A QoS 2 PUBLISH whose exchange is not in flight is delivered, recorded and answered. -/
theorem receives_new (hauto : c.options.autoAck) (hp : p ≠ 0) {q : Publish}
    (h : Receives c q acts c') (hq : q.qos = .exactlyOnce) (hid : q.id = some p)
    (hk : Key.inbound p ∉ c.session.ledger.keys) :
    acts = [.emit (.publish (.ofPublish q)), .persist (.started (.receipt c.version p .success)),
        .send (Retained.ackBytes c.version .pubRec p .success)] ∧
      c'.session.ledger.toList = c.session.ledger.toList ++ [.receipt c.version p .success] := by
  cases h with
  | plain h => simp [hq, hid] at h
  | manual _ hmanual _ =>
    rw [hauto] at hmanual
    cases hmanual
  | once honce => simp [hq] at honce
  | tracked _ hid' _ hne hl =>
    obtain rfl := Option.some.inj (hid.symm.trans hid')
    exact ⟨rfl, hl.toList⟩
  | zero _ hzero => exact absurd (Option.some.inj (hid.symm.trans hzero)) hp
  | repeated _ hid' he hek =>
    obtain rfl := Option.some.inj (hid.symm.trans hid')
    exact absurd (Ledger.mem_keys.2 ⟨_, he, hek⟩) hk

/-- One whose exchange is in flight is only answered again. -/
theorem receives_repeated (hc : c.session.WF) (hauto : c.options.autoAck) {q : Publish}
    {e : Exchange} (h : Receives c q acts c') (hq : q.qos = .exactlyOnce) (hid : q.id = some p)
    (he : e ∈ c.session.ledger.toList) (hek : e.key = .inbound p) :
    acts = [.send e.frame] ∧ c' = c := by
  have hk : Key.inbound p ∈ c.session.ledger.keys := Ledger.mem_keys.2 ⟨e, he, hek⟩
  cases h with
  | plain h => simp [hq, hid] at h
  | manual _ hmanual _ =>
    rw [hauto] at hmanual
    cases hmanual
  | once honce => simp [hq] at honce
  | tracked _ hid' _ hne hl =>
    obtain rfl := Option.some.inj (hid.symm.trans hid')
    exact absurd hk hl.fresh
  | zero _ hid' _ hfresh =>
    obtain rfl := Option.some.inj (hid.symm.trans hid')
    exact absurd hk hfresh
  | repeated _ hid' hx hxk =>
    obtain rfl := Option.some.inj (hid.symm.trans hid')
    rw [hc.ledger.eq_of_key_eq he hx (hek.trans hxk.symm)]
    exact ⟨rfl, rfl⟩

theorem actionsOf_split {ops : List Op} {options : ClientOptions} (hauto : options.autoAck)
    (hp : p ≠ 0) {before between after : List Action} {m m' : Message}
    (h : (new options).actionsOf ops =
      before ++ .emit (.publish m) :: (between ++ .emit (.publish m') :: after))
    (hm : m.qos = .exactlyOnce ∧ m.id = some p) (hm' : m'.qos = .exactlyOnce ∧ m'.id = some p) :
    .persist (.erase (.inbound p)) ∈ between := by
  have hwatch : (((new options).actionsOf ops).foldlM (watch p) false).isSome :=
    watch_after (wf_new options) hauto hp ops fun h => by cases h
  rw [h] at hwatch
  refine erase_mem_of_watch hwatch ?_ ?_
  · simp [Action.delivers, hm]
  · simp [Action.delivers, hm']

/-- With automatic acknowledgment, whatever happens to a client: between two deliveries of QoS 2
messages with the same identifier the end of the exchange was reported. While there is a connection,
a QoS 2 PUBLISH without an exchange in flight is delivered, recorded and answered with PUBREC; one
with an exchange in flight is answered with the retained PUBREC and does nothing else. -/
theorem delivered_exactly_once (options : ClientOptions) (hauto : options.autoAck)
    (ops : List Op) (p : UInt16) (hp : p ≠ 0) :
    let c := (new options).after ops
    (∀ (before between after : List Action) (m m' : Message),
      (new options).actionsOf ops =
        before ++ .emit (.publish m) :: (between ++ .emit (.publish m') :: after) →
      m.qos = .exactlyOnce ∧ m.id = some p → m'.qos = .exactlyOnce ∧ m'.id = some p →
      .persist (.erase (.inbound p)) ∈ between) ∧
    ∀ (q : Publish) (op : Op), c.isConnected →
      op = .receive (.publish q) ∨ op = .handle (.publish q) →
      q.qos = .exactlyOnce → q.id = some p →
      (Key.inbound p ∉ c.session.ledger.keys →
        ∃ frame, Retained.ack c.version .pubRec p .success = .ok frame ∧
          (c.step op).actions =
            [.emit (.publish (.ofPublish q)),
              .persist (.started ⟨p, .inbound, .pubRel, .exactlyOnce, frame, c.version⟩),
              .send frame] ∧
          (c.step op).client.session.ledger.toList =
            c.session.ledger.toList ++ [⟨p, .inbound, .pubRel, .exactlyOnce, frame, c.version⟩]) ∧
      ∀ e ∈ c.session.ledger.toList, e.key = .inbound p →
        (c.step op).actions = [.send e.frame] ∧ (c.step op).client = c ∧
          e.frameType = PacketType.pubRec.toByte := by
  intro c
  have hc : c.WF := wf_after (wf_new options) ops
  have hauto' : c.options.autoAck := by rw [options_after (wf_new options)]; exact hauto
  refine ⟨fun _ _ _ _ _ h hm hm' => actionsOf_split hauto hp h hm hm', ?_⟩
  intro q op hconn hop hq hid
  obtain ⟨acts, c', h, hhandle, hreceive⟩ := step_packet hc (.publish q)
  have hstep : c.step op = ⟨.ok none, acts, c'⟩ := by
    rcases hop with rfl | rfl
    · exact hreceive hconn
    · exact hhandle
  rw [hstep]
  cases h with
  | publish h =>
    refine ⟨fun hk => ?_, fun e he hek => ?_⟩
    · obtain ⟨hacts, hlist⟩ := receives_new hauto' hp h hq hid hk
      exact ⟨_, Retained.ack_eq .., hacts, hlist⟩
    · obtain ⟨hacts, hclient⟩ := receives_repeated hc.session hauto' h hq hid he hek
      refine ⟨hacts, hclient, ?_⟩
      have hretains : e.retains = .pubRec := by
        rw [Exchange.retains, (Exchange.key_eq_inbound.1 hek).2]
      rw [(Exchange.check_eq_ok_iff.1 (hc.session.checks e he)).2.2, hretains]
  | clientOnly hp => simp [Packet.packetType] at hp

/-- A QoS 2 message with the identifier 7. -/
def seventh : Publish := ⟨"t", some 7, [], .exactlyOnce, false, false, .empty, .v5⟩

/-- The message comes, its exchange ends, and it comes again. -/
def twoExchanges : List Op :=
  [.connect {} 0, .receive (.connAck ⟨false, .success, .empty, .v5⟩), .receive (.publish seventh),
    .receive (.ack .pubRel (.ofReason 7 .success)), .receive (.publish seventh)]

/-- Both deliveries of the message have the end of an exchange between them; coming a third time, it
is only answered. -/
theorem delivered_in_two_exchanges :
    let c := (new {}).after twoExchanges
    (∃ before between after,
      (new {}).actionsOf twoExchanges =
        before ++ .emit (.publish (.ofPublish seventh)) ::
          (between ++ .emit (.publish (.ofPublish seventh)) :: after) ∧
      .persist (.erase (.inbound 7)) ∈ between) ∧
    c.isConnected ∧ ∃ e ∈ c.session.ledger.toList,
      e.key = .inbound 7 ∧ (c.step (.receive (.publish seventh))).actions = [.send e.frame] := by
  intro c
  have hconn : c.isConnected := by decide +kernel
  have hopen : ∃ e ∈ c.session.ledger.toList, e.key = .inbound 7 := by decide +kernel
  have hsplit : (new {}).actionsOf twoExchanges =
      ((new {}).actionsOf twoExchanges).take 3 ++ .emit (.publish (.ofPublish seventh)) ::
        ((((new {}).actionsOf twoExchanges).drop 4).take 5 ++
          .emit (.publish (.ofPublish seventh)) :: ((new {}).actionsOf twoExchanges).drop 10) := by
    decide +kernel
  obtain ⟨hend, hpublish⟩ := delivered_exactly_once {} rfl twoExchanges 7 (by decide)
  obtain ⟨e, he, hek⟩ := hopen
  obtain ⟨hagain, -⟩ :=
    (hpublish seventh (.receive (.publish seventh)) hconn (.inl rfl) rfl rfl).2 e he hek
  exact ⟨⟨_, _, _, hsplit, hend _ _ _ _ _ hsplit ⟨rfl, rfl⟩ ⟨rfl, rfl⟩⟩, hconn, e, he, hek, hagain⟩

end Client

end Mqtt
