import Mqtt.Proofs.Client.Step
import Mqtt.Proofs.Session.Edit
import Mqtt.Proofs.Session.Record

/-!
# Operations as edits of the session

Whatever an operation does to the session of a client is a row of edits, and the changes that these
report are the ones that the actions of the operation carry: `Steps.edits`. A record that is taken
in has no action; it counts as stored (`Client.recorded`).

So a client stays well-formed whatever happens to it: `wf_step` for one operation, `wf_after` for
any number of them.
-/

namespace Mqtt

namespace Client

/-- The changes of the records that actions carry. -/
def changesOf (acts : List Action) : List Change := acts.filterMap Action.change?

theorem changesOf_append (acts acts' : List Action) :
    changesOf (acts ++ acts') = changesOf acts ++ changesOf acts' :=
  List.filterMap_append

theorem changesOf_erasures (l : Ledger) : changesOf (Reaction.erasures l) = l.keys.map .erase := by
  simp [changesOf, Reaction.erasures, List.filterMap_map, Function.comp_def, Action.change?]

theorem changesOf_greeting (c : Client) (p : ConnAck) : changesOf (c.greeting p) = [] := by
  unfold greeting
  split <;> rfl

theorem changesOf_failureOf (r : Except Error Unit) : changesOf (failureOf r) = [] := by
  cases r <;> rfl

/-- The record that an operation takes in. -/
def takenIn (c : Client) (op : Op) : List Change :=
  match op, (c.step op).result with
  | .restore id data, .ok _ =>
    match Record.decode id data with
    | .ok e => [.store e.key data]
    | .error _ => []
  | _, _ => []

/-- What becomes of the records kept outside the process: the changes that the actions of an
operation carry, and the record that it takes in. -/
def recorded (c : Client) (op : Op) : List Change := changesOf (c.step op).actions ++ c.takenIn op

variable {c c' : Client} {acts : List Action}

/-! ## The edits of an operation -/

section Edits

open Session

theorem Publishes.edits (hc : c.session.WF) {p : Publish} {a : Option UInt16}
    (h : Publishes c p a acts c') : Edits c.session (changesOf acts) c'.session := by
  cases h with
  | once hq hf => exact .none _
  | tracked hq hid hf he hcheck hl =>
    have hk : Exchange.key _ = .outbound _ := congrArg Exchange.key he
    exact (Edit.startOutbound (IdPool.hands_of_claim hc.ids hid) hk hcheck hl).one

theorem Subscribes.edits (hc : c.session.WF) {filters : List TopicFilter} {asked : Option UInt16}
    {id : UInt16} (h : Subscribes c filters asked id acts c') :
    Edits c.session (changesOf acts) c'.session := by
  cases h with
  | sent hne hid hf => exact (Edit.subscribe _ (IdPool.hands_of_claim hc.ids hid)).one

theorem Unsubscribes.edits (hc : c.session.WF) {filter : String} {asked : Option UInt16}
    {id : UInt16} (h : Unsubscribes c filter asked id acts c') :
    Edits c.session (changesOf acts) c'.session := by
  cases h with
  | sent hid hf => exact (Edit.unsubscribe _ (IdPool.hands_of_claim hc.ids hid)).one

/-- The exchange of a published message is released. -/
theorem edits_released (hc : c.session.WF) {e : Exchange} {l : Ledger} {id : UInt16}
    {reason : Reason} (hk : e.key = .outbound id) (ha : e.awaits = .pubRec)
    (hl : Ledger.Moved c.session.ledger e (e.released c.version reason) l) :
    Edits c.session [.moved (e.released c.version reason)] { c.session with ledger := l } := by
  have hd := (Exchange.key_eq_outbound.1 hk).2
  have hf : e.Follows (e.released c.version reason) := ⟨rfl, rfl, .inr ⟨ha, rfl⟩⟩
  exact (Edit.move hf (Exchange.check_released_eq (hc.checks e hl.mem) hd ha) hl).one

theorem Acknowledges.edits (hc : c.session.WF) {id : UInt16} {reason : Reason} {kind : AckKind}
    (h : Acknowledges c id reason kind acts c') : Edits c.session (changesOf acts) c'.session := by
  cases h with
  | pubAck | pubRecAgain | pubRecRefusal | pubRelAgain | pubCompAgain => exact .none _
  | pubRec hid hr hl => exact (Edit.startInbound rfl (Exchange.check_receipt hid) hl).one
  | pubRel hk ha hl => exact edits_released hc hk ha hl
  | pubComp hk => exact (Edit.complete hk).one

theorem Abandons.edits {id : UInt16} (h : Abandons c id acts c') :
    Edits c.session (changesOf acts) c'.session := by
  cases h with
  | message he hk hr => exact (Edit.complete (Ledger.mem_keys.2 ⟨_, he, hk⟩)).one
  | nothing h => exact .none _

theorem Resumes.edits (hc : c.session.WF) {e : Exchange} {r : Except Error Unit}
    (h : Resumes c e r acts c') : Edits c.session (changesOf acts) c'.session := by
  cases h with
  | current | stuck => exact .none _
  | @converted frame l hv hf hl =>
    have hfollows : e.Follows (e.reframed frame c.version) := ⟨rfl, rfl, .inl rfl⟩
    have hcheck : (e.reframed frame c.version).check = .ok () :=
      Exchange.check_reframed c.version (hc.checks e hl.mem) (Retained.type_of_convert hf)
    exact (Edit.move hfollows hcheck hl).one

theorem Replays.edits {ks : List Key} {r : Except Error Unit} (h : Replays c ks r acts c')
    (hc : c.session.WF) : Edits c.session (changesOf acts) c'.session := by
  induction h with
  | done => exact .none _
  | next he hd h hs ih =>
    rw [changesOf_append]
    exact (h.edits hc).trans (ih (h.wf hc he))
  | stop he hd h => exact h.edits hc

theorem Joins.edits (hc : c.session.WF) {p : ConnAck} (h : Joins c p acts c') :
    Edits c.session (changesOf acts) c'.session := by
  have hwelcomed : Edit c.session [] (c.welcomed p).session := by
    rw [Reaction.welcomed_session]
    exact .keep rfl rfl rfl rfl
  cases h with
  | unexpected hp => exact .none _
  | refused hp hr => exact .none _
  | fresh hp hr hs =>
    rw [changesOf_append, changesOf_erasures, changesOf_greeting, List.append_nil]
    have hl : (c.welcomed p).session.ledger = c.session.ledger := by
      rw [Reaction.welcomed_session]
    have := Edits.next hwelcomed Edit.purge.one
    rwa [hl] at this
  | resumed hp hr hs h =>
    rw [changesOf_append, changesOf_append, changesOf_greeting, changesOf_failureOf,
      List.append_nil]
    exact .next hwelcomed (h.edits (Reaction.wf_welcomed hc p))

theorem Receives.edits {p : Publish} (h : Receives c p acts c') :
    Edits c.session (changesOf acts) c'.session := by
  cases h with
  | plain | manual | once | zero | repeated => exact .none _
  | tracked hq hid hauto hne hl =>
    exact (Edit.startInbound rfl (Exchange.check_receipt hne) hl).one

theorem Continues.edits (hc : c.session.WF) {a : Ack} {kind : AckKind}
    (h : Continues c a kind acts c') : Edits c.session (changesOf acts) c'.session := by
  cases h with
  | unsolicited | outOfOrder | noted | releasedAgain | endedAgain | endNoted => exact .none _
  | settled he hk ha hr => exact (Edit.complete (Ledger.mem_keys.2 ⟨_, he, hk⟩)).one
  | released hk ha hr hauto hl => exact edits_released hc hk ha hl
  | ended hauto hk => exact (Edit.complete hk).one

theorem Handles.edits (hc : c.session.WF) {p : Packet} (h : Handles c p acts c') :
    Edits c.session (changesOf acts) c'.session := by
  cases h with
  | connAck h => exact h.edits hc
  | publish h => exact h.edits
  | ack h => exact h.edits hc
  | subAck h => exact (Edit.completeSubscribe _).one
  | unsubAck h => exact (Edit.completeUnsubscribe _).one
  | subAckUnknown | unsubAckUnknown | pingResp | clientOnly => exact .none _
  | closed =>
    rw [changesOf_append]
    split <;> exact .none _

theorem Connects.edits {o : ConnectOptions} {now : Nat} (h : Connects c o now acts c') :
    Edits c.session (changesOf acts) c'.session := by
  cases h with
  | keeping hp hf hclean hexp => exact (edit_times _ _ _).one
  | forgetting hp hf hforget =>
    rw [changesOf_append, changesOf_erasures]
    exact .next .purge (edit_times _ _ _).one

theorem Disconnects.edits {now : Nat} (h : Disconnects c now acts c') :
    Edits c.session (changesOf acts) c'.session := by
  cases h with
  | keeping hconn hf hr => exact .next .dropRequests (edit_times _ _ _).one
  | forgetting hconn hf hr =>
    rw [changesOf_append]
    change Edits _ (changesOf (Reaction.erasures c.session.ledger) ++ []) _
    rw [changesOf_erasures]
    exact .next .purge (.none _)

theorem Loses.edits {now : Nat} (h : Loses c now acts c') :
    Edits c.session (changesOf acts) c'.session := by
  cases h with
  | before hp => exact .none _
  | now hp => exact .next .dropRequests (edit_times _ _ _).one

theorem Pings.edits (h : Pings c acts c') : Edits c.session (changesOf acts) c'.session := by
  cases h <;> exact .none _

theorem Steps.edits (hc : c.session.WF) {op : Op} {a : Option UInt16} (h : Steps c op a acts c')
    (hop : ∀ id data, op ≠ .restore id data) : Edits c.session (changesOf acts) c'.session := by
  cases h with
  | connect h => exact h.edits
  | early => exact .none _
  | receive _ h => exact h.edits hc
  | handle h => exact h.edits hc
  | publish _ h => exact h.edits hc
  | publishWithId _ _ _ h => exact h.edits hc
  | subscribe _ h => exact h.edits hc
  | subscribeWithId _ _ h => exact h.edits hc
  | unsubscribe _ h => exact h.edits hc
  | unsubscribeWithId _ _ h => exact h.edits hc
  | acknowledge _ h => exact h.edits hc
  | abandon h => exact h.edits
  | ping h => exact h.edits
  | disconnect h => exact h.edits
  | connectionLost h => exact h.edits
  | restore h => exact absurd rfl (hop _ _)

theorem recorded_of_error {op : Op} {e : Error} (h : c.step op = ⟨.error e, [], c⟩) :
    c.recorded op = [] := by
  have htaken : c.takenIn op = [] := by
    unfold takenIn
    rw [h]
    cases op <;> rfl
  rw [recorded, h, htaken]
  rfl

theorem recorded_of_ok {op : Op} {a : Option UInt16} (h : c.step op = ⟨.ok a, acts, c'⟩)
    (hop : ∀ id data, op ≠ .restore id data) : c.recorded op = changesOf acts := by
  have htaken : c.takenIn op = [] := by
    unfold takenIn
    cases op with
    | restore id data => exact absurd rfl (hop id data)
    | connect | receive | handle | request | abandon | ping | disconnect | connectionLost => rfl
  rw [recorded, h, htaken, List.append_nil]

/-- A record that is taken in counts as stored. -/
theorem recorded_of_restore {id : UInt16} {data : Bytes} {a : Option UInt16} {e : Exchange}
    (h : c.step (.restore id data) = ⟨.ok a, [], c'⟩) (hd : Record.decode id data = .ok e) :
    c.recorded (.restore id data) = [.started e] := by
  have htaken : c.takenIn (.restore id data) = [.started e] := by
    unfold takenIn
    rw [h]
    simp only [hd]
    rw [Change.started, (Record.decode_inv hd).2.2]
  rw [recorded, h, htaken]
  rfl

/-- An operation edits the session and records each edit. -/
theorem edits_step (hc : c.WF) (op : Op) :
    Edits c.session (c.recorded op) (c.step op).client.session := by
  rcases step_cases hc op with ⟨e, h⟩ | ⟨a, acts, c', h, hs⟩
  · rw [recorded_of_error h, h]
    exact .none _
  by_cases hop : ∃ id data, op = .restore id data
  · obtain ⟨id, data, rfl⟩ := hop
    cases hs with
    | restore hr =>
      cases hr with
      | record hp hd hrestore =>
        rw [recorded_of_restore h hd, h]
        exact (edit_restore hc.session (Record.decode_inv hd).2.1 hrestore).one
  · have hop : ∀ id data, op ≠ .restore id data := fun id data heq => hop ⟨id, data, heq⟩
    rw [recorded_of_ok h hop, h]
    exact hs.edits hc.session hop

end Edits

/-! ## Well-formed clients -/

section Idle

open Session

theorem Joins.idle (hc : c.WF) {p : ConnAck} (h : Joins c p acts c')
    (hconn : c'.isConnected = false) : c'.session.Idle := by
  cases h with
  | unexpected hp => exact hc.idle hconn
  | refused hp hr => exact hc.idle (by rw [isConnected, hp])
  | fresh hp hr hs => exact idle_purge _
  | resumed hp hr hs h =>
    rw [h.frame] at hconn
    cases hconn

theorem Receives.idle (hc : c.WF) {p : Publish} (h : Receives c p acts c')
    (hconn : c'.isConnected = false) : c'.session.Idle := by
  have hi := hc.idle
  cases h with
  | plain | manual | once | zero | repeated => exact hi hconn
  | tracked => exact ⟨(hi hconn).1, (hi hconn).2⟩

theorem Continues.idle (hc : c.WF) {a : Ack} {kind : AckKind} (h : Continues c a kind acts c')
    (hconn : c'.isConnected = false) : c'.session.Idle := by
  have hi := hc.idle
  cases h with
  | unsolicited | outOfOrder | noted | releasedAgain | endedAgain | endNoted => exact hi hconn
  | settled | ended => exact (hi hconn).complete _
  | released => exact ⟨(hi hconn).1, (hi hconn).2⟩

theorem Handles.idle (hc : c.WF) {p : Packet} (h : Handles c p acts c')
    (hconn : c'.isConnected = false) : c'.session.Idle := by
  have hi := hc.idle
  cases h with
  | connAck h => exact h.idle hc hconn
  | publish h => exact h.idle hc hconn
  | ack h => exact h.idle hc hconn
  | subAckUnknown | unsubAckUnknown | pingResp | clientOnly | closed => exact hi hconn
  | subAck h =>
    rw [(hi hconn).subscribes] at h
    exact absurd h Std.ExtTreeMap.not_mem_empty
  | unsubAck h =>
    rw [(hi hconn).unsubscribes] at h
    exact absurd h Std.ExtTreeMap.not_mem_empty

theorem Connects.idle (hc : c.WF) {o : ConnectOptions} {now : Nat} (h : Connects c o now acts c') :
    c'.session.Idle := by
  cases h with
  | keeping hp hf hclean hexp =>
    have hi := hc.idle (by rw [isConnected, hp])
    exact ⟨hi.1, hi.2⟩
  | forgetting hp hf hforget => exact ⟨rfl, rfl⟩

theorem Disconnects.idle {now : Nat} (h : Disconnects c now acts c') : c'.session.Idle := by
  cases h with
  | keeping hconn hf hr =>
    have hi := idle_dropRequests c.session
    exact ⟨hi.1, hi.2⟩
  | forgetting hconn hf hr => exact idle_purge _

theorem Loses.idle (hc : c.WF) {now : Nat} (h : Loses c now acts c') : c'.session.Idle := by
  cases h with
  | before hp => exact hc.idle (by rw [isConnected, hp])
  | now hp =>
    have hi := idle_dropRequests c.session
    exact ⟨hi.1, hi.2⟩

theorem Restores.idle (hc : c.WF) {id : UInt16} {data : Bytes} (h : Restores c id data acts c') :
    c'.session.Idle := by
  cases h with
  | @record e s hp hd hs =>
    have hi := hc.idle (by rw [isConnected, hp])
    obtain ⟨ids, l, rfl, -⟩ := restore_inv hs
    exact ⟨hi.1, hi.2⟩

/-- A request leaves the phase of the connection as it is. -/
theorem isConnected_of_request {r : Request} {a : Option UInt16}
    (h : Steps c (.request r) a acts c') : c'.isConnected := by
  cases h with
  | publish hconn h => cases h <;> exact hconn
  | publishWithId hconn hq hid h => cases h <;> exact hconn
  | subscribe hconn h => cases h; exact hconn
  | subscribeWithId hconn hid h => cases h; exact hconn
  | unsubscribe hconn h => cases h; exact hconn
  | unsubscribeWithId hconn hid h => cases h; exact hconn
  | acknowledge hconn h => cases h <;> exact hconn

theorem Steps.idle (hc : c.WF) {op : Op} {a : Option UInt16} (h : Steps c op a acts c')
    (hconn : c'.isConnected = false) : c'.session.Idle := by
  have hi := hc.idle
  cases op with
  | request r =>
    rw [isConnected_of_request h] at hconn
    cases hconn
  | connect o now =>
    cases h with
    | connect h => exact h.idle hc
  | receive p =>
    cases h with
    | early => exact hi hconn
    | receive hp h => exact h.idle hc hconn
  | handle p =>
    cases h with
    | handle h => exact h.idle hc hconn
  | abandon id =>
    cases h with
    | abandon h =>
      cases h with
      | message => exact (hi hconn).complete _
      | nothing => exact hi hconn
  | ping =>
    cases h with
    | ping h => cases h <;> exact hi hconn
  | disconnect now =>
    cases h with
    | disconnect h => exact h.idle
  | connectionLost now =>
    cases h with
    | connectionLost h => exact h.idle hc
  | restore id data =>
    cases h with
    | restore h => exact h.idle hc

/-- An operation leaves a well-formed client well-formed. -/
theorem Steps.wf (hc : c.WF) {op : Op} {a : Option UInt16} (h : Steps c op a acts c') : c'.WF := by
  refine ⟨?_, h.idle hc⟩
  by_cases hop : ∃ id data, op = .restore id data
  · obtain ⟨id, data, rfl⟩ := hop
    cases h with
    | restore h =>
      cases h with
      | record hp hd hs =>
        exact (edit_restore hc.session (Record.decode_inv hd).2.1 hs).one.wf hc.session
  · exact (h.edits hc.session fun id data heq => hop ⟨id, data, heq⟩).wf hc.session

theorem wf_step (hc : c.WF) (op : Op) : (c.step op).client.WF := by
  rcases step_cases hc op with ⟨e, h⟩ | ⟨a, acts, c', h, hs⟩ <;> rw [h]
  · exact hc
  · exact hs.wf hc

end Idle

theorem wf_after (hc : c.WF) (ops : List Op) : (c.after ops).WF := by
  induction ops generalizing c with
  | nil => exact hc
  | cons op ops ih => exact ih (wf_step hc op)

theorem options_after (hc : c.WF) (ops : List Op) : (c.after ops).options = c.options := by
  induction ops generalizing c with
  | nil => rfl
  | cons op ops ih => exact (ih (wf_step hc op)).trans (options_step hc op)

/-! ## What holds throughout -/

/-- `P` holds of every operation and the client that it finds. -/
def Throughout (P : Client → Op → Prop) : Client → List Op → Prop
  | _, [] => True
  | c, op :: ops => P c op ∧ Throughout P (c.step op).client ops

variable {P : Client → Op → Prop} {op : Op} {ops : List Op}

theorem throughout_of_forall (h : ∀ op ∈ ops, ∀ c, P c op) : c.Throughout P ops := by
  induction ops generalizing c with
  | nil => trivial
  | cons op ops ih =>
    exact ⟨h op List.mem_cons_self c, ih fun op hop => h op (List.mem_cons_of_mem _ hop)⟩

theorem throughout_concat_iff :
    c.Throughout P (ops ++ [op]) ↔ c.Throughout P ops ∧ P (c.after ops) op := by
  induction ops generalizing c with
  | nil => simp [Throughout, after]
  | cons x xs ih => exact (and_congr_right fun _ => ih).trans and_assoc.symm

/-- What a step keeps under `P` is kept throughout. -/
theorem Throughout.invariant {I : Client → Prop} (h : c.Throughout P ops) (hc : c.WF) (hI : I c)
    (hstep : ∀ c op, c.WF → P c op → I c → I (c.step op).client) : I (c.after ops) := by
  induction ops generalizing c with
  | nil => exact hI
  | cons op ops ih => exact ih h.2 (wf_step hc op) (hstep c op hc h.1 hI)

end Client

end Mqtt
