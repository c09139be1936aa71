import Mqtt.Proofs.Client.Prompt

/-!
# Where Close is reported

A client reports Close in two places: behind its own DISCONNECT (`Disconnects.leaving`), and when it
is told that the connection is lost. Nothing else that it does while it is connected reports Close,
and no event stands behind the action that closes the connection: its actions are `Discreet`
(`Handles.discreet`, `Steps.plain`).

A connection begins with the event that reports CONNACK. The actions before it are of no account,
and those behind it are discreet again (`Steps.opens`).
-/

namespace Mqtt

namespace Client

/-- The events that actions report, in order. -/
def eventsOf (acts : List Action) : List Event := acts.filterMap Action.event?

/-- Nothing is reported. -/
def Silent (acts : List Action) : Prop := ∀ v, .emit v ∉ acts

/-- Nothing is reported and the connection is not closed. -/
def Plain (acts : List Action) : Prop := Silent acts ∧ .close ∉ acts

/-- Close is not reported, and nothing is reported once the connection is closed. -/
def Discreet : List Action → Prop
  | [] => True
  | .emit v :: acts => v ≠ .close ∧ Discreet acts
  | .close :: acts => Silent acts
  | .send _ :: acts | .persist _ :: acts | .keepAlive _ :: acts => Discreet acts

/-- Close is reported, nothing else is, and what is written before it is DISCONNECT. -/
def Leaving : List Action → Prop
  | .emit v :: acts => v = .close ∧ Silent acts
  | .send frame :: acts => PacketType.disconnect.Heads frame ∧ Leaving acts
  | .persist _ :: acts => Leaving acts
  | [] | .keepAlive _ :: _ | .close :: _ => False

/-- If the first event that is reported is `v`, there is a connection, and the actions behind it are
discreet. If there is none, there is no connection. -/
def Opens (v : Event) (c : Client) : List Action → Prop
  | [] => c.isConnected = false
  | .emit v' :: acts => v' = v → c.isConnected ∧ Discreet acts
  | .close :: _ => False
  | .send _ :: acts | .persist _ :: acts | .keepAlive _ :: acts => Opens v c acts

/-- An operation that neither makes nor ends a connection, nor takes a packet. -/
def Op.Minor : Op → Prop
  | .request _ | .abandon _ | .ping | .restore .. => True
  | .connect .. | .receive _ | .handle _ | .disconnect _ | .connectionLost _ => False

variable {c c' : Client} {acts acts' : List Action} {v : Event}

theorem isConnected_congr (h : c'.phase = c.phase) : c'.isConnected = c.isConnected := by
  rw [isConnected, h, isConnected]

theorem not_isConnected (h : c.phase = .disconnected) : c.isConnected = false := by
  rw [isConnected, h]

theorem Disconnects.isConnected {now : Nat} (h : Disconnects c now acts c') : c.isConnected := by
  cases h <;> assumption

/-! ## Actions that report nothing -/

@[simp] theorem silent_nil : Silent [] := by simp [Silent]

@[simp] theorem silent_cons {a : Action} :
    Silent (a :: acts) ↔ (∀ v, a ≠ .emit v) ∧ Silent acts := by
  simp [Silent, not_or, forall_and, eq_comm]

@[simp] theorem silent_append : Silent (acts ++ acts') ↔ Silent acts ∧ Silent acts' := by
  simp [Silent, not_or, forall_and]

@[simp] theorem eventsOf_nil : eventsOf [] = [] := rfl

theorem eventsOf_silent (h : Silent acts) : eventsOf acts = [] := by
  rw [eventsOf, List.filterMap_eq_nil_iff]
  intro a ha
  cases a with
  | emit v => exact absurd ha (h v)
  | send | persist | keepAlive | close => rfl

theorem eventsOf_append : eventsOf (acts ++ acts') = eventsOf acts ++ eventsOf acts' :=
  List.filterMap_append

@[simp] theorem plain_nil : Plain [] := by simp [Plain]

theorem plain_cons {a : Action} : Plain (a :: acts) ↔ Plain [a] ∧ Plain acts := by
  simp [Plain, not_or, and_assoc, and_left_comm]

theorem plain_append : Plain (acts ++ acts') ↔ Plain acts ∧ Plain acts' := by
  simp [Plain, not_or, and_assoc, and_left_comm]

theorem plain_erasures (l : Ledger) : Plain (Reaction.erasures l) := by
  simp [Plain, Silent, Reaction.erasures]

theorem discreet_append (h : Plain acts) : Discreet (acts ++ acts') ↔ Discreet acts' := by
  induction acts with
  | nil => rfl
  | cons a acts ih =>
    have hrest := ih (plain_cons.1 h).2
    cases a with
    | send | persist | keepAlive => exact hrest
    | emit | close => simp [Plain] at h

theorem Plain.discreet (h : Plain acts) : Discreet acts := by
  have hall : Discreet (acts ++ []) := (discreet_append h).2 trivial
  rwa [List.append_nil] at hall

theorem opens_append (h : Plain acts) : Opens v c (acts ++ acts') ↔ Opens v c acts' := by
  induction acts with
  | nil => rfl
  | cons a acts ih =>
    have hrest := ih (plain_cons.1 h).2
    cases a with
    | send | persist | keepAlive => exact hrest
    | emit | close => simp [Plain] at h

theorem Plain.opens (h : Plain acts) (hconn : c.isConnected = false) : Opens v c acts := by
  have hall : Opens v c (acts ++ []) := (opens_append h).2 hconn
  rwa [List.append_nil] at hall

theorem leaving_erasures (l : Ledger) (h : Leaving acts) :
    Leaving (Reaction.erasures l ++ acts) := by
  rw [Reaction.erasures]
  induction l.keys with
  | nil => exact h
  | cons k ks ih => exact ih

/-! ## Sending exchanges again -/

theorem Replays.plain {ks : List Key} {r : Except Error Unit} (h : Replays c ks r acts c') :
    Plain acts := by
  have hresumes : ∀ {c c' : Client} {e : Exchange} {r : Except Error Unit} {acts : List Action},
      Resumes c e r acts c' → Plain acts := fun h => by
    cases h <;> simp [Plain]
  induction h with
  | done => exact plain_nil
  | next he hd h hs ih => exact plain_append.2 ⟨hresumes h, ih⟩
  | stop he hd h => exact hresumes h

theorem discreet_failure (e : Error) : Discreet (failure e) := by simp [failure, Discreet]

theorem discreet_failureOf (r : Except Error Unit) : Discreet (failureOf r) := by
  cases r with
  | ok u => trivial
  | error e => exact discreet_failure e

/-- An error is reported, and that is not `v`. -/
theorem opens_failure {e : Error} (hv : v ≠ .error e) : Opens v c (failure e) :=
  fun h => absurd h.symm hv

/-! ## Operations -/

/-- What neither makes nor ends a connection nor takes a packet reports nothing. -/
theorem Steps.plain {op : Op} {a : Option UInt16} (h : Steps c op a acts c') (hop : op.Minor) :
    Plain acts ∧ c'.phase = c.phase := by
  cases h with
  | publish _ h => cases h <;> simp [Plain]
  | publishWithId _ _ _ h => cases h <;> simp [Plain]
  | subscribe _ h => cases h; simp [Plain]
  | subscribeWithId _ _ h => cases h; simp [Plain]
  | unsubscribe _ h => cases h; simp [Plain]
  | unsubscribeWithId _ _ h => cases h; simp [Plain]
  | acknowledge _ h => cases h <;> simp [Plain]
  | abandon h => cases h <;> simp [Plain]
  | ping h => cases h <;> simp [Plain]
  | restore h => cases h; simp [Plain]
  | connect | early | receive | handle | disconnect | connectionLost => cases hop

theorem Connects.plain {o : ConnectOptions} {now : Nat} (h : Connects c o now acts c') :
    Plain acts ∧ c'.phase = .connecting := by
  cases h with
  | keeping => simp [Plain, connecting]
  | forgetting => exact ⟨plain_append.2 ⟨plain_erasures _, by simp [Plain]⟩, rfl⟩

theorem Disconnects.leaving {now : Nat} (h : Disconnects c now acts c') :
    Leaving acts ∧ c'.phase = .disconnected := by
  cases h with
  | keeping hconn hf hr => exact ⟨⟨Packet.type_of_toBytes hf, rfl, by simp⟩, rfl⟩
  | forgetting hconn hf hr =>
    exact ⟨⟨Packet.type_of_toBytes hf, leaving_erasures _ ⟨rfl, by simp⟩⟩, rfl⟩

/-! ## Packets -/

theorem Receives.discreet {p : Publish} (h : Receives c p acts c') :
    Discreet acts ∧ c'.phase = c.phase := by
  cases h <;> simp [Discreet, failure]

theorem Continues.discreet {a : Ack} {kind : AckKind} (h : Continues c a kind acts c') :
    Discreet acts ∧ c'.phase = c.phase := by
  cases h <;> simp [Discreet, failure]

/-- A packet does not report Close, and leaves it to whoever carries out the actions to end the
connection. -/
theorem Handles.discreet {p : Packet} (h : Handles c p acts c') (hp : c.phase ≠ .connecting) :
    Discreet acts ∧ c'.phase = c.phase := by
  cases h with
  | connAck h =>
    cases h with
    | unexpected => exact ⟨discreet_failure _, rfl⟩
    | refused hp' | fresh hp' | resumed hp' => exact absurd hp' hp
  | publish h => exact h.discreet
  | ack h => exact h.discreet
  | subAck | unsubAck | subAckUnknown | unsubAckUnknown | pingResp => simp [Discreet]
  | closed =>
    refine ⟨?_, rfl⟩
    split <;> simp [Discreet]
  | clientOnly => exact ⟨discreet_failure _, rfl⟩

theorem Steps.discreet {p : Packet} {a : Option UInt16} (h : Steps c (.receive p) a acts c')
    (hconn : c.isConnected) : Discreet acts ∧ c'.phase = c.phase := by
  have hp : c.phase ≠ .connecting := fun hp => by simp [isConnected, hp] at hconn
  cases h with
  | early hconn' => simp [hconn] at hconn'
  | receive _ h => exact h.discreet hp

theorem Joins.opens {p : ConnAck} (h : Joins c p acts c') {sp : Bool} {r : Reason}
    (hr : r.isError = false) : Opens (.connAck sp r) c' acts := by
  have hgreeting : ∀ {c' : Client} {acts : List Action}, c'.isConnected → Discreet acts →
      Opens (.connAck sp r) c' (c.greeting p ++ acts) := fun hconn hacts _ => by
    refine ⟨hconn, (discreet_append ?_).2 hacts⟩
    split <;> simp [Plain]
  cases h with
  | unexpected hp => exact opens_failure (by simp)
  | refused hp hr' =>
    rintro ⟨⟩
    rw [hr'] at hr
    cases hr
  | fresh =>
    rw [opens_append (plain_erasures _), ← List.append_nil (c.greeting p)]
    exact hgreeting rfl trivial
  | @resumed r' acts _ hp _ hs h =>
    rw [List.append_assoc]
    refine hgreeting ?_ ((discreet_append h.plain).2 (discreet_failureOf r'))
    rw [h.frame]
    rfl

/-- When a connection is accepted, the event that reports CONNACK comes first. -/
theorem Joins.begins {p : ConnAck} (h : Joins c p acts c') (hconn : c'.isConnected)
    (hp : c.phase = .connecting) :
    p.reason.isError = false ∧
      ∃ es, eventsOf acts = .connAck p.sessionPresent p.reason :: es := by
  cases h with
  | unexpected hp' => exact absurd hp hp'
  | refused => cases hconn
  | fresh _ hr =>
    refine ⟨hr, ?_⟩
    rw [eventsOf_append, eventsOf_silent (plain_erasures _).1]
    exact ⟨_, rfl⟩
  | resumed _ hr =>
    refine ⟨hr, ?_⟩
    rw [eventsOf_append, eventsOf_append]
    exact ⟨_, rfl⟩

theorem Joins.phase {p : ConnAck} (h : Joins c p acts c') (hp : c.phase = .connecting) :
    c'.phase ≠ .connecting := by
  cases h with
  | unexpected hp' => exact absurd hp hp'
  | refused => simp
  | fresh => simp [welcomed]
  | resumed _ _ _ h =>
    rw [h.frame]
    simp [welcomed]

/-- Before a connection is accepted, the event that reports CONNACK comes first. -/
theorem Steps.opens {p : Packet} {a : Option UInt16} (h : Steps c (.receive p) a acts c')
    (hconn : c.isConnected = false) {sp : Bool} {r : Reason} (hr : r.isError = false) :
    Opens (.connAck sp r) c' acts := by
  cases h with
  | early => exact opens_failure (by simp)
  | receive hp h =>
    have hp := hp.resolve_left (by simp [hconn])
    cases h with
    | connAck h => exact h.opens hr
    | publish | subAck | subAckUnknown | unsubAck | unsubAckUnknown | pingResp | closed => cases hp
    | @ack kind => cases kind <;> cases hp
    | clientOnly hp' => simp [hp] at hp'

/-- While a connection is asked for, a packet makes it, or ends it. -/
theorem Steps.begins {p : Packet} {a : Option UInt16} (h : Steps c (.receive p) a acts c')
    (hp : c.phase = .connecting) :
    (c'.phase = .connecting → .close ∈ acts) ∧ (c'.isConnected →
      ∃ sp r es, r.isError = false ∧ eventsOf acts = .connAck sp r :: es) := by
  have hnone : c.isConnected = false := by rw [isConnected, hp]
  cases h with
  | early => exact ⟨fun _ => by simp [failure], fun hconn => by simp [hnone] at hconn⟩
  | receive hp' h =>
    have hp' := hp'.resolve_left (by simp [hnone])
    cases h with
    | connAck h =>
      refine ⟨fun hp' => absurd hp' (h.phase hp), fun hconn => ?_⟩
      obtain ⟨hr, es, hes⟩ := h.begins hconn hp
      exact ⟨_, _, es, hr, hes⟩
    | publish | subAck | subAckUnknown | unsubAck | unsubAckUnknown | pingResp | closed => cases hp'
    | @ack kind => cases kind <;> cases hp'
    | clientOnly hp'' => simp [hp'] at hp''

/-- While a connection is asked for, anything but a CONNACK that is accepted closes it. -/
theorem Steps.closes_or_accepts {p : Packet} {a : Option UInt16}
    (h : Steps c (.receive p) a acts c') (hp : c.phase = .connecting) :
    .close ∈ acts ∨ c'.isConnected ∧ p.packetType = .connAck := by
  have hnone : c.isConnected = false := by rw [isConnected, hp]
  cases h with
  | early => exact .inl (by simp [failure])
  | receive hp' h =>
    have hp' := hp'.resolve_left (by simp [hnone])
    cases h with
    | connAck h =>
      cases h with
      | unexpected hp'' => exact absurd hp hp''
      | refused => exact .inl (by simp)
      | fresh => exact .inr ⟨rfl, hp'⟩
      | resumed _ _ _ h =>
        refine .inr ⟨?_, hp'⟩
        rw [h.frame]
        rfl
    | publish | subAck | subAckUnknown | unsubAck | unsubAckUnknown | pingResp | closed => cases hp'
    | @ack kind => cases kind <;> cases hp'
    | clientOnly hp'' => simp [hp'] at hp''

/-- A packet that leaves the client disconnected closes the connection. -/
theorem Steps.closes {p : Packet} {a : Option UInt16} (h : Steps c (.receive p) a acts c')
    (hp' : c'.phase = .disconnected) : c.phase = .disconnected ∨ .close ∈ acts := by
  cases hp : c.phase with
  | disconnected => exact .inl rfl
  | connecting =>
    rcases h.closes_or_accepts hp with hclose | ⟨hconn, -⟩
    · exact .inr hclose
    · simp [not_isConnected hp'] at hconn
  | connected =>
    have hphase := (h.discreet (by rw [isConnected, hp])).2
    rw [hp', hp] at hphase
    cases hphase

theorem Disconnects.closes {now : Nat} (h : Disconnects c now acts c') : .close ∈ acts := by
  cases h <;> simp

end Client

end Mqtt
