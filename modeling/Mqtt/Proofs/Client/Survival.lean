import Mqtt.Proofs.Client.Edits

/-!
# What ends an exchange

`packetEnds` and `ends` list the operations that end an exchange: the acknowledgment that completes
it, giving up on it, and what forgets the whole session. Nothing else does. Any other exchange is
still there after the operation, in its order among the others, with its key and quality of service,
and waits for what it waited for or has gone from PUBREC to PUBCOMP (`exchanges_survive`).
-/

namespace Mqtt

namespace Client

/-- Whether a packet ends an exchange. -/
def packetEnds (c : Client) (e : Exchange) : Packet → Bool
  | .connAck p => c.phase = .connecting && !p.reason.isError && !p.sessionPresent
  | .ack .pubAck a => e.key = .outbound a.id && e.awaits = .pubAck
  | .ack .pubRec a => e.key = .outbound a.id && e.awaits = .pubRec && a.reason.isError
  | .ack .pubComp a => e.key = .outbound a.id && e.awaits = .pubComp
  | .ack .pubRel a => c.options.autoAck && e.key = .inbound a.id
  | _ => false

/-- Whether an operation that is not refused ends an exchange. -/
def endsUnlessRefused (c : Client) (e : Exchange) : Op → Bool
  | .connect o now => o.cleanStart || c.session.hasExpired now
  | .receive p => (c.isConnected || p.packetType = .connAck) && c.packetEnds e p
  | .handle p => c.packetEnds e p
  | .request (.acknowledge .pubComp id _) => e.key = .inbound id
  | .abandon id => e.key = .outbound id && e.retains = .publish
  | .disconnect _ => !c.session.expiry.retains
  | _ => false

/-- Whether an operation ends an exchange. -/
def ends (c : Client) (op : Op) (e : Exchange) : Bool :=
  (c.step op).result.isOk && c.endsUnlessRefused e op

variable {c c' : Client} {acts : List Action} {e : Exchange} {k : Key}

/-- An operation that ends an exchange reports its end, and no other does. -/
theorem mem_changesOf {ch : Change} : ch ∈ changesOf acts ↔ .persist ch ∈ acts := by
  simp only [changesOf, List.mem_filterMap]
  constructor
  · rintro ⟨a, ha, h⟩
    cases a <;> simp [Action.change?] at h
    exact h ▸ ha
  · exact fun h => ⟨_, h, rfl⟩

theorem persist_mem_of_erase_mem {op : Op} (h : .erase k ∈ c.recorded op) :
    .persist (.erase k) ∈ (c.step op).actions := by
  rw [recorded, List.mem_append] at h
  rcases h with h | h
  · exact mem_changesOf.1 h
  · unfold takenIn at h
    split at h
    · split at h <;> simp at h
    · cases h

theorem mem_erasures {l : Ledger} : .persist (.erase k) ∈ Reaction.erasures l ↔ k ∈ l.keys := by
  simp [Reaction.erasures]

theorem persist_not_mem_failureOf {r : Except Error Unit} {ch : Change} :
    .persist ch ∉ failureOf r := by
  cases r <;> simp [failureOf, failure]

theorem persist_not_mem_greeting {p : ConnAck} {ch : Change} : .persist ch ∉ c.greeting p := by
  unfold greeting
  split <;> simp

/-! ## Requests -/

theorem Publishes.ends_nothing {p : Publish} {a : Option UInt16} (h : Publishes c p a acts c') :
    .persist (.erase k) ∉ acts := by
  cases h <;> simp [Change.started]

theorem Subscribes.ends_nothing {filters : List TopicFilter} {asked : Option UInt16} {id : UInt16}
    (h : Subscribes c filters asked id acts c') : .persist (.erase k) ∉ acts := by
  cases h
  simp

theorem Unsubscribes.ends_nothing {filter : String} {asked : Option UInt16} {id : UInt16}
    (h : Unsubscribes c filter asked id acts c') : .persist (.erase k) ∉ acts := by
  cases h
  simp

theorem Acknowledges.ends_iff {id : UInt16} {reason : Reason} {kind : AckKind}
    (h : Acknowledges c id reason kind acts c') (he : e ∈ c.session.ledger.toList) :
    .persist (.erase e.key) ∈ acts ↔ kind = .pubComp ∧ e.key = .inbound id := by
  cases h with
  | pubAck | pubRecAgain | pubRecRefusal | pubRelAgain => simp
  | pubRec => simp [Change.started]
  | pubRel => simp [Change.moved]
  | pubComp hk => simp
  | pubCompAgain hk =>
    have : e.key ≠ .inbound id := fun h => hk (Ledger.mem_keys.2 ⟨e, he, h⟩)
    simp [this]

theorem Abandons.ends_iff (hc : c.session.WF) {id : UInt16} (h : Abandons c id acts c')
    (he : e ∈ c.session.ledger.toList) :
    .persist (.erase e.key) ∈ acts ↔ e.key = .outbound id ∧ e.retains = .publish := by
  cases h with
  | @message x hx hk hr =>
    simp only [List.mem_singleton, Action.persist.injEq, Change.erase.injEq]
    refine ⟨fun h => ⟨h, ?_⟩, And.left⟩
    rwa [hc.ledger.eq_of_key_eq he hx (h.trans hk.symm)]
  | nothing h => simpa using h e he

/-! ## Packets -/

theorem Resumes.ends_nothing {r : Except Error Unit} (h : Resumes c e r acts c') :
    .persist (.erase k) ∉ acts := by
  cases h <;> simp [Change.moved]

theorem Replays.ends_nothing {ks : List Key} {r : Except Error Unit} (h : Replays c ks r acts c') :
    .persist (.erase k) ∉ acts := by
  induction h with
  | done => simp
  | next he hd h hs ih => simp [h.ends_nothing, ih]
  | stop he hd h => exact h.ends_nothing

theorem Joins.ends_iff {p : ConnAck} (h : Joins c p acts c') (he : e ∈ c.session.ledger.toList) :
    .persist (.erase e.key) ∈ acts ↔ c.packetEnds e (.connAck p) := by
  cases h with
  | unexpected hp => simp [packetEnds, hp, failure]
  | refused hp hr => simp [packetEnds, hr]
  | fresh hp hr hs =>
    have hk : e.key ∈ c.session.ledger.keys := Ledger.mem_keys.2 ⟨e, he, rfl⟩
    simp [packetEnds, hp, hr, hs, mem_erasures, hk]
  | resumed hp hr hs h =>
    simp [packetEnds, hs, h.ends_nothing, persist_not_mem_greeting, persist_not_mem_failureOf]

theorem Receives.ends_nothing {p : Publish} (h : Receives c p acts c') :
    .persist (.erase k) ∉ acts := by
  cases h <;> simp [failure, Change.started]

/-- The acknowledgment of a published message ends what waits for it; PUBREC only if it refuses the
message. -/
theorem packetEnds_reply {a : Ack} {kind : AckKind} (hkind : kind ≠ .pubRel) :
    c.packetEnds e (.ack kind a) ↔
      e.key = .outbound a.id ∧ e.awaits = kind.packetType ∧
        (kind = .pubRec → a.reason.isError) := by
  cases kind with
  | pubRel => exact absurd rfl hkind
  | pubAck | pubRec | pubComp => simp [packetEnds, AckKind.packetType, and_assoc]

theorem Continues.ends_iff (hc : c.session.WF) {a : Ack} {kind : AckKind}
    (h : Continues c a kind acts c') (he : e ∈ c.session.ledger.toList) :
    .persist (.erase e.key) ∈ acts ↔ c.packetEnds e (.ack kind a) := by
  have hsame : ∀ {x : Exchange}, x ∈ c.session.ledger.toList → x.key = .outbound a.id →
      e.key = .outbound a.id → e = x := fun hx hk hek =>
    hc.ledger.eq_of_key_eq he hx (hek.trans hk.symm)
  cases h with
  | unsolicited hkind hk =>
    rw [packetEnds_reply hkind]
    simp only [List.not_mem_nil, false_iff, not_and]
    exact fun hek => absurd (Ledger.mem_keys.2 ⟨e, he, hek⟩) hk
  | outOfOrder hkind hx hk ha hrep =>
    rw [packetEnds_reply hkind]
    simp only [failure, List.mem_cons, reduceCtorEq, List.not_mem_nil, or_self, false_iff, not_and]
    intro hek hea
    exact absurd (hsame hx hk hek ▸ hea) ha
  | @settled _ x hx hk ha hr =>
    have hkind : kind ≠ .pubRel := by
      rintro rfl
      have hawaits := Exchange.awaits_outbound (hc.checks x hx) (Exchange.key_eq_outbound.1 hk).2
      simp [ha, AckKind.packetType] at hawaits
    rw [packetEnds_reply hkind]
    simp only [List.mem_cons, Action.persist.injEq, Change.erase.injEq, reduceCtorEq,
      List.not_mem_nil, or_self, or_false]
    exact ⟨fun hek => ⟨hek, hsame hx hk hek ▸ ha, hr⟩, And.left⟩
  | released hk ha hr hauto hl => simp [packetEnds, hr, Change.moved]
  | noted hx hk ha hr hauto => simp [packetEnds, hr]
  | releasedAgain hx hk ha =>
    simp only [packetEnds, List.mem_singleton, reduceCtorEq, false_iff, Bool.and_eq_true,
      decide_eq_true_eq, not_and, Bool.not_eq_true, and_imp]
    intro hek hea
    rw [hsame hx hk hek, ha] at hea
    cases hea
  | ended hauto hk => simp [packetEnds, hauto]
  | endedAgain hauto hk =>
    have hek : e.key ≠ .inbound a.id := fun h => hk (Ledger.mem_keys.2 ⟨e, he, h⟩)
    simp [packetEnds, hek]
  | endNoted hauto => simp [packetEnds, hauto]

theorem Handles.ends_iff (hc : c.session.WF) {p : Packet} (h : Handles c p acts c')
    (he : e ∈ c.session.ledger.toList) :
    .persist (.erase e.key) ∈ acts ↔ c.packetEnds e p := by
  cases h with
  | connAck h => exact h.ends_iff he
  | publish h => simp [h.ends_nothing, packetEnds]
  | ack h => exact h.ends_iff hc he
  | subAck | subAckUnknown | unsubAck | unsubAckUnknown | pingResp => simp [packetEnds]
  | closed =>
    simp only [packetEnds, Bool.false_eq_true, iff_false]
    split <;> simp
  | @clientOnly p hp =>
    have hends : c.packetEnds e p = false := by
      cases p with
      | connAck p => simp [Packet.packetType] at hp
      | ack kind a => cases kind <;> simp [Packet.packetType, AckKind.packetType] at hp
      | _ => rfl
    simp [failure, hends]

/-! ## Connections -/

theorem Connects.ends_iff {o : ConnectOptions} {now : Nat} (h : Connects c o now acts c')
    (he : e ∈ c.session.ledger.toList) :
    .persist (.erase e.key) ∈ acts ↔ o.cleanStart ∨ c.session.hasExpired now := by
  cases h with
  | keeping hp hf hclean hexp => simp [hclean, hexp]
  | forgetting hp hf hforget =>
    have hk : e.key ∈ c.session.ledger.keys := Ledger.mem_keys.2 ⟨e, he, rfl⟩
    simp [mem_erasures, hk, hforget]

theorem Disconnects.ends_iff {now : Nat} (h : Disconnects c now acts c')
    (he : e ∈ c.session.ledger.toList) :
    .persist (.erase e.key) ∈ acts ↔ c.session.expiry.retains = false := by
  cases h with
  | keeping hconn hf hr => simp [hr]
  | forgetting hconn hf hr =>
    have hk : e.key ∈ c.session.ledger.keys := Ledger.mem_keys.2 ⟨e, he, rfl⟩
    simp [mem_erasures, hk, hr]

/-! ## Operations -/

theorem Steps.ends_iff (hc : c.session.WF) {op : Op} {a : Option UInt16} (h : Steps c op a acts c')
    (he : e ∈ c.session.ledger.toList) :
    .persist (.erase e.key) ∈ acts ↔ c.endsUnlessRefused e op := by
  cases h with
  | connect h => simp [h.ends_iff he, endsUnlessRefused]
  | early hconn hp => simp [failure, endsUnlessRefused, hconn, hp]
  | receive hp h => simp [h.ends_iff hc he, endsUnlessRefused, hp]
  | handle h => exact h.ends_iff hc he
  | publish _ h => simp [h.ends_nothing, endsUnlessRefused]
  | publishWithId _ _ _ h => simp [h.ends_nothing, endsUnlessRefused]
  | subscribe _ h => simp [h.ends_nothing, endsUnlessRefused]
  | subscribeWithId _ _ h => simp [h.ends_nothing, endsUnlessRefused]
  | unsubscribe _ h => simp [h.ends_nothing, endsUnlessRefused]
  | unsubscribeWithId _ _ h => simp [h.ends_nothing, endsUnlessRefused]
  | @acknowledge kind _ _ _ _ _ h =>
    rw [h.ends_iff he]
    cases kind <;> simp [endsUnlessRefused]
  | abandon h => simp [h.ends_iff hc he, endsUnlessRefused]
  | ping h => cases h <;> simp [endsUnlessRefused]
  | disconnect h => simp [h.ends_iff he, endsUnlessRefused]
  | connectionLost h => cases h <;> simp [endsUnlessRefused]
  | restore h =>
    cases h
    simp [endsUnlessRefused]

/-- An operation reports the end of an exchange exactly if it ends it. -/
theorem erase_mem_recorded_iff (hc : c.WF) (op : Op) (he : e ∈ c.session.ledger.toList) :
    .erase e.key ∈ c.recorded op ↔ c.ends op e := by
  rcases step_cases hc op with ⟨err, h⟩ | ⟨a, acts, c', h, hs⟩
  · simp [recorded_of_error h, ends, h, Except.isOk, Except.toBool]
  have hends : c.ends op e = c.endsUnlessRefused e op := by
    simp [ends, h, Except.isOk, Except.toBool]
  rw [hends]
  by_cases hop : ∃ id data, op = .restore id data
  · obtain ⟨id, data, rfl⟩ := hop
    cases hs with
    | restore hr =>
      cases hr with
      | record hp hd hrestore => simp [recorded_of_restore h hd, Change.started, endsUnlessRefused]
  · rw [recorded_of_ok h fun id data heq => hop ⟨id, data, heq⟩, mem_changesOf]
    exact hs.ends_iff hc.session he

/-- Whatever happened to a client, and whatever happens to it next: the exchanges that are not ended
by the operation are still there, in their order and before any new one, with their keys and
qualities of service. Each waits for what it waited for, or it has gone from PUBREC to PUBCOMP. -/
theorem exchanges_survive (options : ClientOptions) (ops : List Op) (op : Op) :
    let c := (new options).after ops
    c.session.ledger.Retains (fun e => !c.ends op e) (c.step op).client.session.ledger := by
  intro c
  have hc : c.WF := wf_after (wf_new options) ops
  obtain ⟨kept, added, hlist, hkept⟩ := (edits_step hc op).retains hc.session
  refine ⟨kept, added, hlist, ?_⟩
  have hfilter : c.session.ledger.toList.filter (Session.outlasts (c.recorded op)) =
      c.session.ledger.toList.filter fun e => !c.ends op e := by
    refine List.filter_congr fun e he => ?_
    rw [Session.outlasts, Bool.eq_iff_iff]
    simp [erase_mem_recorded_iff hc op he]
  rwa [hfilter] at hkept

end Client

end Mqtt
