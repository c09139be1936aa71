import Mqtt.Proofs.Client.Prompt

/-!
# Reactions that make the changes of their actions

Whoever carries out the actions of a reaction has to know three things of it: that the records
follow the changes in its actions, behind which frames changes stand, and what the client is like
before and afterwards. `Reaction.Takes` puts them together, and the lemmas below are for the
reactions that a connection is made of. What is known of the client should outlast the connection
(`Lasting`), since the connection may be lost while the actions are carried out.
-/

namespace Mqtt

namespace Client

/-- What holds of a client still holds when its connection is lost. -/
def Lasting (P : Client → Prop) : Prop :=
  ∀ ⦃c c' : Client⦄ ⦃now : Nat⦄ ⦃acts : List Action⦄, Loses c now acts c' → P c → P c'

/-- Nothing in particular is known of a client. -/
abbrev Any (_ : Client) : Prop := True

/-- A frame that ends a connection, and the session with it. -/
def Parting (x : Expiry) (frame : Bytes) : Prop :=
  PacketType.disconnect.Heads frame ∧ x.retains = false

/-- A frame that may be sent again, if `S` holds. -/
def Resent (S : Prop) (frame : Bytes) : Prop :=
  (PacketType.publish.Heads frame ∨ PacketType.pubRel.Heads frame) ∧ S

/-- From a client as in `P` the reaction is refused, or it makes the changes of its actions and
leaves a client as in `Q`. Changes stand behind no frames but those in `F`. -/
def Reaction.Takes {α : Type} (F : Bytes → Prop) (P Q : Client → Prop) (x : Reaction α) : Prop :=
  ∀ c, c.WF → P c → x.Settles c fun _ acts c' =>
    c'.WF ∧ Q c' ∧ Prompt F acts ∧
      (Sink.ofLedger c.session.ledger).applyAll (changesOf acts) = .ofLedger c'.session.ledger

variable {α : Type} {c c' : Client} {acts : List Action} {F : Bytes → Prop} {P Q : Client → Prop}

/-! ## What stays -/

theorem Connects.version {o : ConnectOptions} {now : Nat} (h : Connects c o now acts c') :
    c'.version = o.version := by
  cases h <;> rfl

theorem Connects.uniform {o : ConnectOptions} {now : Nat} (h : Connects c o now acts c')
    {v : Version} (hu : Uniform v c.session.ledger) : Uniform v c'.session.ledger := by
  cases h with
  | keeping => exact hu
  | forgetting =>
    intro e he
    have hclear : e ∈ c.session.ledger.clear.toList := he
    simp at hclear

/-- Only a connection that is accepted changes the expiry. -/
theorem Handles.expiry {p : Packet} (h : Handles c p acts c') (hp : c.phase ≠ .connecting) :
    c'.session.expiry = c.session.expiry := by
  cases h with
  | connAck h =>
    cases h with
    | unexpected => rfl
    | refused hp' | fresh hp' | resumed hp' => exact absurd hp' hp
  | publish h => cases h <;> rfl
  | ack h => cases h <;> simp
  | subAck | unsubAck => simp
  | subAckUnknown | unsubAckUnknown | pingResp | closed | clientOnly => rfl

theorem lasting_any : Lasting Any := fun _ _ _ _ _ => id

theorem lasting_expiry (x : Expiry) : Lasting fun c => c.session.expiry = x :=
  fun _ _ _ _ h hx => h.expiry.trans hx

theorem lasting_accepted (x : Expiry) :
    Lasting fun c => c.session.expiry = x ∧ c.phase ≠ .connecting :=
  fun _ _ _ _ h hc => ⟨h.expiry.trans hc.1, by simp [h.phase]⟩

theorem lasting_uniform (S : Prop) :
    Lasting fun c => ¬Uniform c.version c.session.ledger → S := fun _ _ _ _ h hS hu => by
  rw [h.version, h.ledger] at hu
  exact hS hu

/-! ## Reactions -/

/-- An operation that takes in no record makes the changes of its actions. -/
theorem takes_of_steps {x : Reaction α} (op : Op) (hop : ∀ id data, op ≠ .restore id data)
    (hx : ∀ c, c.WF → x.Settles c fun _ acts c' => ∃ a, Steps c op a acts c')
    (hQ : ∀ c a acts c', P c → Steps c op a acts c' → Q c')
    (hF : ∀ c frame, P c → c.Exposes op frame → F frame) : x.Takes F P Q := by
  intro c hc hP
  refine (hx c hc).imp fun _ acts c' ⟨a, h⟩ => ⟨h.wf hc, hQ c a acts c' hP h, ?_, ?_⟩
  · exact (h.prompt hc.session).imp fun frame => hF c frame hP
  · exact Sink.applyAll_of_followAll ((h.edits hc.session hop).follow hc.session)

theorem takes_request {x : Reaction α} {r : Request}
    (hx : ∀ c, c.WF → x.Settles c fun _ acts c' => ∃ a, Steps c (.request r) a acts c') :
    x.Takes F Any Any :=
  takes_of_steps (.request r) (by simp) hx (fun _ _ _ _ _ _ => trivial)
    fun _ _ _ h => by simpa using h.op_eq

theorem takes_abandon (id : UInt16) : (Reaction.abandon id).Takes F Any Any := by
  refine takes_of_steps (.abandon id) (by simp) (fun c hc => ?_) (fun _ _ _ _ _ _ => trivial)
    fun _ _ _ h => by simpa using h.op_eq
  obtain ⟨acts, c', hrun, h⟩ := Reaction.runs_abandon hc.session id
  exact hrun.settles ⟨none, .abandon h⟩

theorem takes_ping : Reaction.ping.Takes F P P := by
  refine takes_of_steps .ping (by simp) (fun c hc => ?_) (fun c a acts c' hP h => ?_)
    fun _ _ _ h => by simpa using h.op_eq
  · obtain ⟨acts, c', hrun, h⟩ := Reaction.runs_ping (c := c)
    exact hrun.settles ⟨none, .ping h⟩
  · cases h with
    | ping h => cases h <;> exact hP

/-- CONNECT is sent. What is in flight afterwards was so before. -/
theorem takes_connect (o : ConnectOptions) (now : Nat) (S : Prop) :
    (Reaction.connect o now).Takes F (fun c => ¬Uniform o.version c.session.ledger → S)
      fun c => ¬Uniform c.version c.session.ledger → S := by
  refine takes_of_steps (.connect o now) (by simp) (fun c hc => ?_)
    (fun c a acts c' hS h hu => ?_) fun _ _ _ h => by simpa using h.op_eq
  · exact (Reaction.settles_connect o now).imp fun _ _ _ h => ⟨none, .connect h⟩
  · cases h with
    | connect h =>
      rw [h.version] at hu
      exact hS (mt h.uniform hu)

theorem takes_receive (p : Packet) (hQ : ∀ c acts c', P c → Handles c p acts c' → Q c')
    (hPQ : ∀ c, P c → Q c) (hF : ∀ c frame, P c → c.Exposes (.receive p) frame → F frame) :
    (Reaction.receive p).Takes F P Q := by
  refine takes_of_steps (.receive p) (by simp) (fun c hc => ?_) (fun c a acts c' hP h => ?_) hF
  · exact (Reaction.settles_receive hc p).imp fun _ _ _ h => ⟨none, h⟩
  · cases h with
    | early => exact hPQ c hP
    | receive _ h => exact hQ c acts c' hP h

theorem takes_disconnect (now : Nat) (x : Expiry) :
    (Reaction.disconnect now).Takes (Parting x) (fun c => c.session.expiry = x) Any := by
  refine takes_of_steps (.disconnect now) (by simp) (fun c hc => ?_)
    (fun _ _ _ _ _ _ => trivial) ?_
  · exact (Reaction.settles_disconnect now).imp fun _ _ _ h => ⟨none, .disconnect h⟩
  · rintro c frame rfl h
    cases h with
    | disconnect ht hr => exact ⟨ht, hr⟩
    | resuming hop =>
      obtain ⟨a, h | h, -⟩ := hop <;> cases h

end Client

end Mqtt
