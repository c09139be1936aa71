import Mqtt.Proofs.Client.Stage

/-!
# Changes behind a frame

Actions are carried out up to the first frame that cannot be written, and a change of the records
that stands behind that frame is never made. `Prompt F` says of a list of actions that changes stand
behind no frames but those in `F`, and `Steps.prompt` which frames of an operation these are
(`Exposes`): DISCONNECT if the session is forgotten with the connection, and what a resumed session
sends again if some of it has to be converted.
-/

namespace Mqtt

/-- The frame is that of a packet of the type. -/
def PacketType.Heads (t : PacketType) (frame : Bytes) : Prop := frame.headD 0 / 16 = t.toByte

namespace Client

/-- Changes of the records stand behind no frame but those in `F`. -/
def Prompt (F : Bytes → Prop) : List Action → Prop
  | [] => True
  | .send frame :: acts => (changesOf acts = [] ∨ F frame) ∧ Prompt F acts
  | .emit _ :: acts | .persist _ :: acts | .keepAlive _ :: acts | .close :: acts => Prompt F acts

section Prompt

variable {F : Bytes → Prop} {acts : List Action}

/-- Without changes none stands behind a frame. -/
theorem prompt_of_changesOf (h : changesOf acts = []) : Prompt F acts := by
  induction acts with
  | nil => trivial
  | cons a acts ih =>
    cases a with
    | persist x => cases h
    | send frame => exact ⟨.inl h, ih h⟩
    | emit | keepAlive | close => exact ih h

theorem prompt_of_frames (h : ∀ frame, .send frame ∈ acts → F frame) : Prompt F acts := by
  induction acts with
  | nil => trivial
  | cons a acts ih =>
    have hrest := ih fun frame hmem => h frame (List.mem_cons_of_mem a hmem)
    cases a with
    | send frame => exact ⟨.inr (h frame List.mem_cons_self), hrest⟩
    | persist | emit | keepAlive | close => exact hrest

theorem Prompt.imp {G : Bytes → Prop} (h : Prompt F acts) (hFG : ∀ frame, F frame → G frame) :
    Prompt G acts := by
  induction acts with
  | nil => trivial
  | cons a acts ih =>
    cases a with
    | send frame => exact ⟨h.1.imp_right (hFG frame), ih h.2⟩
    | persist | emit | keepAlive | close => exact ih h

theorem prompt_erasures (l : Ledger) (h : Prompt F acts) :
    Prompt F (Reaction.erasures l ++ acts) := by
  rw [Reaction.erasures]
  induction l.keys with
  | nil => exact h
  | cons k ks ih => exact ih

end Prompt

/-- The frames of an operation that changes of the records may stand behind. -/
inductive Exposes (c : Client) : Op → Bytes → Prop
  /-- The session is forgotten with the connection. -/
  | disconnect {now : Nat} {frame : Bytes} (ht : PacketType.disconnect.Heads frame)
      (hr : c.session.expiry.retains = false) : Exposes c (.disconnect now) frame
  /-- Frames are sent again, and converted if they are in another version. -/
  | resuming {op : Op} {frame : Bytes} (hop : c.Resuming op)
      (ht : PacketType.publish.Heads frame ∨ PacketType.pubRel.Heads frame)
      (hv : ¬Uniform c.version c.session.ledger) : Exposes c op frame

variable {c c' : Client} {acts : List Action} {F : Bytes → Prop}

/-- Frames are exposed when a connection ends and when one is accepted. -/
theorem Exposes.op_eq {op : Op} {frame : Bytes} (h : c.Exposes op frame) :
    (∃ now, op = .disconnect now) ∨
      ∃ a, op = .receive (.connAck a) ∨ op = .handle (.connAck a) := by
  cases h with
  | @disconnect now _ ht hr => exact .inl ⟨now, rfl⟩
  | resuming hop =>
    obtain ⟨a, hop, -⟩ := hop
    exact .inr ⟨a, hop⟩

/-! ## Sending exchanges again -/

/-- What is sent again has the type that is retained. -/
theorem heads_retains {e : Exchange} (h : e.check = .ok ()) : e.retains.Heads e.replay := by
  have htype : e.frame.headD 0 / 16 = e.retains.toByte := (Exchange.check_eq_ok_iff.1 h).2.2
  by_cases ha : e.awaits = .pubComp
  · rw [Exchange.replay, if_pos ha]
    exact htype
  · rw [Exchange.replay, if_neg ha]
    cases hf : e.frame with
    | nil =>
      rw [hf] at htype
      exact htype
    | cons first rest =>
      rw [hf] at htype
      exact (Role.flags_markDup first).1.trans htype

/-- What is sent again is a PUBLISH or a PUBREL. -/
theorem heads_replay {e : Exchange} (h : e.check = .ok ()) (hd : e.direction = .outbound) :
    PacketType.publish.Heads e.replay ∨ PacketType.pubRel.Heads e.replay := by
  have hretains := heads_retains h
  rw [Exchange.retains_outbound hd] at hretains
  split at hretains
  · exact .inr hretains
  · exact .inl hretains

theorem Resumes.heads (hc : c.session.WF) {e : Exchange} (he : e ∈ c.session.ledger.toList)
    (hd : e.direction = .outbound) {r : Except Error Unit} (h : Resumes c e r acts c')
    {frame : Bytes} (hf : .send frame ∈ acts) :
    PacketType.publish.Heads frame ∨ PacketType.pubRel.Heads frame := by
  have hcheck := hc.checks e he
  cases h with
  | current hv =>
    obtain rfl := by simpa using hf
    exact heads_replay hcheck hd
  | @converted converted l hv hconvert hl =>
    have hcheck' : (e.reframed converted c.version).check = .ok () :=
      Exchange.check_reframed c.version hcheck (Retained.type_of_convert hconvert)
    obtain rfl := by simpa using hf
    exact heads_replay hcheck' hd
  | stuck hv hconvert => cases hf

theorem Replays.heads {ks : List Key} {r : Except Error Unit} (h : Replays c ks r acts c')
    (hc : c.session.WF) {frame : Bytes} (hf : .send frame ∈ acts) :
    PacketType.publish.Heads frame ∨ PacketType.pubRel.Heads frame := by
  induction h with
  | done => cases hf
  | next he hd h hs ih =>
    rcases List.mem_append.1 hf with hf | hf
    · exact h.heads hc he hd hf
    · exact ih (h.wf hc he) hf
  | stop he hd h => exact h.heads hc he hd hf

/-- Nothing has to be converted if everything is in the version of the connection. -/
theorem Replays.unchanged {ks : List Key} {r : Except Error Unit} (h : Replays c ks r acts c')
    (hu : Uniform c.version c.session.ledger) : changesOf acts = [] := by
  induction h with
  | done => rfl
  | next he hd h hs ih =>
    cases h with
    | current hv => exact ih hu
    | converted hv hf hl => exact absurd (hu _ he hd) hv
  | stop he hd h =>
    cases h with
    | stuck => rfl

/-! ## Every operation -/

theorem send_mem_greeting {p : ConnAck} {frame : Bytes} : .send frame ∉ c.greeting p := by
  unfold greeting
  split <;> simp

theorem send_mem_failureOf {r : Except Error Unit} {frame : Bytes} :
    .send frame ∉ failureOf r := by
  cases r <;> simp [failureOf, failure]

theorem Joins.prompt (hc : c.session.WF) {p : ConnAck} {op : Op}
    (hop : op = .receive (.connAck p) ∨ op = .handle (.connAck p)) (h : Joins c p acts c') :
    Prompt (c.Exposes op) acts := by
  cases h with
  | unexpected | refused => exact prompt_of_changesOf rfl
  | fresh => exact prompt_erasures _ (prompt_of_changesOf (changesOf_greeting c p))
  | @resumed r acts _ hp hr hs h =>
    by_cases hu : Uniform c.version c.session.ledger
    · have hw : Uniform (c.welcomed p).version (c.welcomed p).session.ledger := by
        rw [Reaction.welcomed_session, version_welcomed]
        exact hu
      apply prompt_of_changesOf
      rw [changesOf_append, changesOf_append, changesOf_greeting, h.unchanged hw,
        changesOf_failureOf]
      rfl
    · refine prompt_of_frames fun frame hmem => .resuming ⟨p, hop, hp, hr, hs⟩ ?_ hu
      have hframe : .send frame ∈ acts := by
        simpa [send_mem_greeting, send_mem_failureOf] using hmem
      exact h.heads (Reaction.wf_welcomed hc p) hframe

theorem Handles.prompt (hc : c.session.WF) {p : Packet} {op : Op}
    (hop : op = .receive p ∨ op = .handle p) (h : Handles c p acts c') :
    Prompt (c.Exposes op) acts := by
  cases h with
  | connAck h => exact h.prompt hc hop
  | publish h =>
    cases h with
    | tracked => exact ⟨.inl rfl, trivial⟩
    | plain | manual | once | zero | repeated => exact prompt_of_changesOf rfl
  | ack h =>
    cases h with
    | settled => trivial
    | released | ended => exact ⟨.inl rfl, trivial⟩
    | unsolicited | outOfOrder | noted | releasedAgain | endedAgain | endNoted =>
      exact prompt_of_changesOf rfl
  | subAck | subAckUnknown | unsubAck | unsubAckUnknown | pingResp | clientOnly =>
    exact prompt_of_changesOf rfl
  | closed =>
    apply prompt_of_changesOf
    split <;> rfl

theorem Connects.prompt {o : ConnectOptions} {now : Nat} (h : Connects c o now acts c') :
    Prompt F acts := by
  cases h with
  | keeping => exact prompt_of_changesOf rfl
  | forgetting => exact prompt_erasures _ (prompt_of_changesOf rfl)

theorem Disconnects.prompt {now : Nat} (h : Disconnects c now acts c') :
    Prompt (c.Exposes (.disconnect now)) acts := by
  cases h with
  | keeping => exact prompt_of_changesOf rfl
  | forgetting hconn hf hr =>
    refine ⟨.inr (.disconnect (Packet.type_of_toBytes hf) hr), ?_⟩
    exact prompt_erasures _ (prompt_of_changesOf rfl)

theorem Publishes.prompt {p : Publish} {a : Option UInt16} (h : Publishes c p a acts c') :
    Prompt F acts := by
  cases h with
  | once => exact prompt_of_changesOf rfl
  | tracked => exact ⟨.inl rfl, trivial⟩

theorem Acknowledges.prompt {id : UInt16} {reason : Reason} {kind : AckKind}
    (h : Acknowledges c id reason kind acts c') : Prompt F acts := by
  cases h with
  | pubAck | pubRecAgain | pubRecRefusal | pubRelAgain | pubCompAgain =>
    exact prompt_of_changesOf rfl
  | pubRec | pubRel | pubComp => exact ⟨.inl rfl, trivial⟩

/-- Changes of the records stand behind no frames of an operation but those that it exposes. -/
theorem Steps.prompt (hc : c.session.WF) {op : Op} {a : Option UInt16} (h : Steps c op a acts c') :
    Prompt (c.Exposes op) acts := by
  cases h with
  | connect h => exact h.prompt
  | early => exact prompt_of_changesOf rfl
  | receive _ h => exact h.prompt hc (.inl rfl)
  | handle h => exact h.prompt hc (.inr rfl)
  | publish _ h => exact h.prompt
  | publishWithId _ _ _ h => exact h.prompt
  | subscribe _ h => cases h; exact prompt_of_changesOf rfl
  | subscribeWithId _ _ h => cases h; exact prompt_of_changesOf rfl
  | unsubscribe _ h => cases h; exact prompt_of_changesOf rfl
  | unsubscribeWithId _ _ h => cases h; exact prompt_of_changesOf rfl
  | acknowledge _ h => exact h.prompt
  | abandon h => cases h <;> trivial
  | ping h => cases h <;> exact prompt_of_changesOf rfl
  | disconnect h => exact h.prompt
  | connectionLost h => cases h <;> exact prompt_of_changesOf rfl
  | restore h => cases h; trivial

end Client

end Mqtt
