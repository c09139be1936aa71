import Mathlib
import Mqtt.Proofs.Client.Origins
import Mqtt.Proofs.Client.Prompt

/-!
# What a resumed session sends

When the server has kept the session, every outbound exchange is sent again, in the order in which
they were started (`Resumed`). In the version that it was retained in an exchange is sent as it is,
and then nothing of the client changes but the connection: `resumption_replays`. So it goes as often
as the connection is lost and made again, until something is published, acknowledged or given up
(`Spares`).
-/

namespace Mqtt

/-! ## Exchanges in a version -/

/-- The outbound exchanges, in order. -/
def Ledger.outbound (l : Ledger) : List Exchange := l.toList.filter (·.direction = .outbound)

namespace Exchange

/-- The exchange in a version, if its frame can be converted to it. -/
def inVersion (v : Version) (e : Exchange) : Exchange :=
  if e.version = v then e
  else match Retained.convert e.frame e.version v with
    | .ok frame => e.reframed frame v
    | .error _ => e

/-- The frame of the exchange is in a version or can be converted to it. -/
def Convertible (v : Version) (e : Exchange) : Prop :=
  e.version ≠ v → ∃ frame, Retained.convert e.frame e.version v = .ok frame

/-- The actions that send the exchange again: a frame that is converted is recorded before. -/
def resumption (v : Version) (e : Exchange) : List Client.Action :=
  (if e.version = v then [] else [.persist (.moved (e.inVersion v))]) ++
    [.send (e.inVersion v).replay]

variable {v : Version} {e : Exchange}

theorem inVersion_of_eq (h : e.version = v) : e.inVersion v = e := if_pos h

theorem inVersion_of_convert (h : e.version ≠ v) {frame : Bytes}
    (hf : Retained.convert e.frame e.version v = .ok frame) :
    e.inVersion v = e.reframed frame v := by
  rw [inVersion, if_neg h, hf]

theorem resumption_of_eq (h : e.version = v) : e.resumption v = [.send e.replay] := by
  rw [resumption, if_pos h, inVersion_of_eq h]
  rfl

/-- Only the frame changes, and the version. -/
theorem Convertible.inVersion_eq (h : e.Convertible v) :
    e.inVersion v = { e with frame := (e.inVersion v).frame, version := v } := by
  by_cases hv : e.version = v
  · subst hv
    rw [inVersion_of_eq rfl]
  · obtain ⟨frame, hf⟩ := h hv
    rw [inVersion_of_convert hv hf]
    rfl

end Exchange

namespace Client

variable {c c' : Client} {acts : List Action}

theorem mem_outbound {l : Ledger} {e : Exchange} :
    e ∈ l.outbound ↔ e ∈ l.toList ∧ e.direction = .outbound := by
  simp [Ledger.outbound]

theorem outboundKeys_eq (l : Ledger) : Reaction.outboundKeys l = l.outbound.map Exchange.key := by
  rw [Reaction.outboundKeys, Ledger.keys, List.filter_map]
  rfl

/-! ## Resuming -/

/-- Some exchanges were sent again, one after the other, each converted to the version of the
connection. -/
structure Resumed (c : Client) (es : List Exchange) (r : Except Error Unit) (acts : List Action)
    (c' : Client) : Prop where
  result : r = .ok ()
  actions : acts = es.flatMap (·.resumption c.version)
  ledger : c'.session.ledger.toList =
    c.session.ledger.toList.map fun e => if e ∈ es then e.inVersion c.version else e
  same : (∀ e ∈ es, e.version = c.version) → c' = c

/-- An exchange that can be converted is sent again. -/
theorem Resumes.resumed {e : Exchange} {r : Except Error Unit} (h : Resumes c e r acts c')
    (hc : c.session.WF) (he : e ∈ c.session.ledger.toList) (hconv : e.Convertible c.version) :
    Resumed c [e] r acts c' := by
  cases h with
  | current hv =>
    refine ⟨rfl, by simp [Exchange.resumption_of_eq hv], ?_, fun _ => rfl⟩
    rw [List.map_congr_left, List.map_id]
    intro x _
    split
    · rename_i hx
      obtain rfl := List.mem_singleton.1 hx
      exact Exchange.inVersion_of_eq hv
    · rfl
  | @converted frame l hv hf hl =>
    have hin := Exchange.inVersion_of_convert hv hf
    refine ⟨rfl, ?_, ?_, fun hall => absurd (hall e List.mem_cons_self) hv⟩
    · rw [List.flatMap_singleton, Exchange.resumption, if_neg hv, hin]
      rfl
    · change l.toList = _
      rw [hl.toList]
      refine List.map_congr_left fun x hx => ?_
      by_cases hxe : x.key = e.key
      · obtain rfl := hc.ledger.eq_of_key_eq hx he hxe
        simp [hin]
      · have hx' : x ≠ e := fun heq => hxe (congrArg Exchange.key heq)
        simp [hxe, hx']
  | stuck hv hf =>
    obtain ⟨frame, hframe⟩ := hconv hv
    cases hf.symm.trans hframe

/-- Others are sent again after one. -/
theorem Resumed.cons {c'' : Client} {e : Exchange} {es : List Exchange} {r : Except Error Unit}
    {acts' : List Action} (h : Resumed c [e] (.ok ()) acts c') (hs : Resumed c' es r acts' c'')
    (hversion : c'.version = c.version) (hkey : (e.inVersion c.version).key = e.key)
    (hne : ∀ x ∈ es, x.key ≠ e.key) : Resumed c (e :: es) r (acts ++ acts') c'' where
  result := hs.result
  actions := by
    rw [h.actions, hs.actions, hversion, List.flatMap_singleton, List.flatMap_cons]
  ledger := by
    rw [hs.ledger, h.ledger, List.map_map, hversion]
    refine List.map_congr_left fun x _ => ?_
    by_cases hx : x = e
    · subst hx
      have hout : x.inVersion c.version ∉ es := fun hmem => hne _ hmem hkey
      simp [hout]
    · simp [hx]
  same hall := by
    obtain rfl := h.same fun x hx => hall x (by simp [List.mem_singleton.1 hx])
    exact hs.same fun x hx => hall x (List.mem_cons_of_mem e hx)

/-- What can be converted is sent again. -/
theorem Replays.resumed {ks : List Key} {r : Except Error Unit} (h : Replays c ks r acts c')
    (hc : c.session.WF) {es : List Exchange} (hks : ks = es.map Exchange.key) (hn : ks.Nodup)
    (hes : ∀ e ∈ es, e ∈ c.session.ledger.toList ∧ e.Convertible c.version) :
    Resumed c es r acts c' := by
  induction h generalizing es with
  | done c =>
    obtain rfl := List.map_eq_nil_iff.1 hks.symm
    exact ⟨rfl, rfl, by simp, fun _ => rfl⟩
  | @next c c' c'' e ks r acts acts' he hd h hs ih =>
    obtain ⟨e', es, rfl, hkey, rfl⟩ := List.map_eq_cons_iff.1 hks.symm
    obtain rfl : e' = e := hc.ledger.eq_of_key_eq (hes e' List.mem_cons_self).1 he hkey
    obtain ⟨hfresh, hn⟩ := List.nodup_cons.1 hn
    have hne : ∀ x ∈ es, x.key ≠ e'.key := fun x hx hxe =>
      hfresh (List.mem_map.2 ⟨x, hx, hxe⟩)
    have hconv := (hes e' List.mem_cons_self).2
    have hfirst := h.resumed hc he hconv
    have hversion : c'.version = c.version := by rw [h.frame]
    -- the others stay where they are
    have hrest : ∀ x ∈ es, x ∈ c'.session.ledger.toList ∧ x.Convertible c'.version :=
      fun x hx => by
        obtain ⟨hmem, hconv⟩ := hes x (List.mem_cons_of_mem _ hx)
        have hxe : x ∉ [e'] := fun heq => hne x hx (List.mem_singleton.1 heq ▸ rfl)
        rw [hfirst.ledger, hversion]
        exact ⟨List.mem_map.2 ⟨x, hmem, if_neg hxe⟩, hconv⟩
    exact hfirst.cons (ih (h.wf hc he) rfl hn hrest) hversion (by rw [hconv.inVersion_eq]; rfl) hne
  | @stop c c' e ks err acts he hd h =>
    obtain ⟨e', es, rfl, hkey, rfl⟩ := List.map_eq_cons_iff.1 hks.symm
    obtain rfl : e' = e := hc.ledger.eq_of_key_eq (hes e' List.mem_cons_self).1 he hkey
    cases (h.resumed hc he (hes e' List.mem_cons_self).2).result

section Accepted

variable {p : ConnAck}

theorem ledger_welcomed (c : Client) (p : ConnAck) :
    (c.welcomed p).session.ledger = c.session.ledger := by
  rw [Reaction.welcomed_session]

theorem convertible_of_uniform {v : Version} {l : Ledger} (hu : Uniform v l) :
    ∀ e ∈ l.outbound, e.Convertible v := fun e he hne =>
  absurd (hu e (mem_outbound.1 he).1 (mem_outbound.1 he).2) hne

/-- All outbound exchanges are sent again once CONNACK is accepted. -/
theorem Replays.resumed_welcomed (hc : c.session.WF) {r : Except Error Unit}
    (hconv : ∀ e ∈ c.session.ledger.outbound, e.Convertible c.version)
    (h : Replays (c.welcomed p) (Reaction.outboundKeys c.session.ledger) r acts c') :
    Resumed (c.welcomed p) c.session.ledger.outbound r acts c' := by
  refine h.resumed (Reaction.wf_welcomed hc p) (outboundKeys_eq _)
    (hc.ledger.nodup_keys.sublist List.filter_sublist) fun e he => ?_
  rw [ledger_welcomed, version_welcomed]
  exact ⟨(mem_outbound.1 he).1, hconv e he⟩

/-- Nothing changes but the connection if nothing has to be converted. -/
theorem Resumed.eq_welcomed {r : Except Error Unit} (hu : Uniform c.version c.session.ledger)
    (h : Resumed (c.welcomed p) c.session.ledger.outbound r acts c') : c' = c.welcomed p :=
  h.same fun e he => by
    rw [version_welcomed]
    exact hu e (mem_outbound.1 he).1 (mem_outbound.1 he).2

/-- CONNACK resumes the session, if all of it can be converted. -/
theorem step_resume (hc : c.WF) {op : Op}
    (hop : op = .receive (.connAck p) ∨ op = .handle (.connAck p)) (hp : c.phase = .connecting)
    (hr : p.reason.isError = false) (hs : p.sessionPresent)
    (hconv : ∀ e ∈ c.session.ledger.outbound, e.Convertible c.version) :
    ∃ acts c', Resumed (c.welcomed p) c.session.ledger.outbound (.ok ()) acts c' ∧
      c' = { c.welcomed p with
        session := { (c.welcomed p).session with ledger := c'.session.ledger } } ∧
      c.step op = ⟨.ok none, c.greeting p ++ acts, c'⟩ := by
  obtain ⟨acts, c', h, hstep⟩ := step_connAck hc p hop
  cases h with
  | unexpected hp' => exact absurd hp hp'
  | refused _ hr' => cases hr.symm.trans hr'
  | fresh _ _ hs' => cases hs'.symm.trans hs
  | resumed _ _ _ h =>
    have hresumed := h.resumed_welcomed hc.session hconv
    obtain rfl := hresumed.result
    exact ⟨_, c', hresumed, h.frame, by rw [hstep, failureOf, List.append_nil]⟩

/-- In the version of the connection everything is sent again as it is. -/
theorem step_resume_uniform (hc : c.WF) {op : Op}
    (hop : op = .receive (.connAck p) ∨ op = .handle (.connAck p)) (hp : c.phase = .connecting)
    (hr : p.reason.isError = false) (hs : p.sessionPresent)
    (hu : Uniform c.version c.session.ledger) :
    c.step op = ⟨.ok none,
      c.greeting p ++ c.session.ledger.outbound.map (Action.send ·.replay), c.welcomed p⟩ := by
  obtain ⟨acts, c', h, -, hstep⟩ := step_resume hc hop hp hr hs (convertible_of_uniform hu)
  have hacts : acts = c.session.ledger.outbound.map (Action.send ·.replay) := by
    rw [h.actions, version_welcomed, ← List.flatMap_pure_eq_map]
    exact List.flatMap_congr fun e he =>
      Exchange.resumption_of_eq (hu e (mem_outbound.1 he).1 (mem_outbound.1 he).2)
  rw [hstep, hacts, h.eq_welcomed hu]

end Accepted

/-! ## What spares the messages in flight -/

/-- The operation publishes, acknowledges and gives up no message that this client keeps, and it
keeps the session: a connection is made in the version given and asks for the session before that
has run out, and the server has it when it accepts the connection. -/
def Spares (v : Version) (c : Client) : Op → Prop
  | .connect o now => o.version = v ∧ o.cleanStart = false ∧ c.session.hasExpired now = false
  | .receive (.connAck p) | .handle (.connAck p) => p.reason.isError ∨ p.sessionPresent
  | .receive (.ack kind _) | .handle (.ack kind _) => kind = .pubRel
  | .request (.publish p) | .request (.publishWithId _ p) => p.qos = .atMostOnce
  | .request (.acknowledge kind _ _) => kind ≠ .pubRel
  | .disconnect _ => c.session.expiry.retains
  | .abandon _ | .restore _ _ => False
  | .receive _ | .handle _ | .request _ | .ping | .connectionLost _ => True

theorem outbound_started {l m : Ledger} {e : Exchange} (hl : Ledger.Started l e m)
    (hd : e.direction = .inbound) : m.outbound = l.outbound := by
  simp [Ledger.outbound, hl.toList, hd]

theorem outbound_erase {l : Ledger} (hl : l.WF) (id : UInt16) :
    (l.erase (.inbound id)).outbound = l.outbound := by
  rw [Ledger.outbound, Ledger.toList_erase hl, List.filter_filter, Ledger.outbound]
  refine List.filter_congr fun e _ => ?_
  cases hd : e.direction <;> simp [Exchange.key, Key.inbound, hd]

theorem outbound_complete {s : Session} (hs : s.WF) (id : UInt16) :
    (s.complete (.inbound id)).2.ledger.outbound = s.ledger.outbound := by
  rw [hs.complete_eq]
  split
  · exact outbound_erase hs.ledger id
  · rfl

theorem Joins.outbound (hc : c.WF) {p : ConnAck} (hp : p.reason.isError ∨ p.sessionPresent)
    (hu : Uniform c.version c.session.ledger) (h : Joins c p acts c') :
    c'.session.ledger.outbound = c.session.ledger.outbound := by
  cases h with
  | unexpected | refused => rfl
  | fresh _ hr hs => simp [hr, hs] at hp
  | resumed _ _ _ h =>
    have hresumed := h.resumed_welcomed hc.session (convertible_of_uniform hu)
    rw [hresumed.eq_welcomed hu, ledger_welcomed]

theorem Continues.outbound (hc : c.session.WF) {a : Ack} (h : Continues c a .pubRel acts c') :
    c'.session.ledger.outbound = c.session.ledger.outbound := by
  cases h with
  | unsolicited | outOfOrder | endedAgain | endNoted => rfl
  | settled he hk ha =>
    exact absurd ha (Exchange.awaits_ne_pubRel (hc.checks _ he) (Exchange.key_eq_outbound.1 hk).2)
  | ended => exact outbound_complete hc a.id

/-- A packet that spares the messages in flight. -/
theorem Handles.outbound (hc : c.WF) {v : Version} {p : Packet} (hsp : c.Spares v (.handle p))
    (hu : Uniform c.version c.session.ledger) (h : Handles c p acts c') :
    c'.session.ledger.outbound = c.session.ledger.outbound := by
  cases h with
  | connAck h => exact h.outbound hc hsp hu
  | publish h =>
    cases h with
    | plain | manual | once | zero | repeated => rfl
    | tracked _ _ _ _ hl => exact outbound_started hl rfl
  | ack h =>
    obtain rfl : _ = AckKind.pubRel := hsp
    exact h.outbound hc.session
  | subAck => rw [Session.ledger_completeSubscribe]
  | unsubAck => rw [Session.ledger_completeUnsubscribe]
  | subAckUnknown | unsubAckUnknown | pingResp | closed | clientOnly => rfl

theorem Acknowledges.outbound (hc : c.session.WF) {id : UInt16} {reason : Reason} {kind : AckKind}
    (hkind : kind ≠ .pubRel) (h : Acknowledges c id reason kind acts c') :
    c'.session.ledger.outbound = c.session.ledger.outbound := by
  cases h with
  | pubAck | pubRecAgain | pubRecRefusal | pubCompAgain => rfl
  | pubRec _ _ hl => exact outbound_started hl rfl
  | pubRel | pubRelAgain => exact absurd rfl hkind
  | pubComp => exact outbound_complete hc id

theorem Steps.outbound (hc : c.WF) {v : Version} {op : Op} {a : Option UInt16}
    (hsp : c.Spares v op) (hu : Uniform c.version c.session.ledger) (h : Steps c op a acts c') :
    c'.session.ledger.outbound = c.session.ledger.outbound := by
  cases h with
  | connect h =>
    cases h with
    | keeping => rfl
    | forgetting _ _ hforget => simp [hsp.2.1, hsp.2.2] at hforget
  | early => rfl
  | @receive p _ _ _ h =>
    have hsp' : c.Spares v (.handle p) := by cases p <;> exact hsp
    exact h.outbound hc hsp' hu
  | handle h => exact h.outbound hc hsp hu
  | publish _ h =>
    cases h with
    | once => rfl
    | tracked hq => exact absurd hsp hq
  | publishWithId _ hq => exact absurd hsp hq
  | subscribe _ h | subscribeWithId _ _ h => cases h; rfl
  | unsubscribe _ h | unsubscribeWithId _ _ h => cases h; rfl
  | acknowledge _ h => exact h.outbound hc.session hsp
  | abandon | restore => exact hsp.elim
  | ping h => cases h <;> rfl
  | disconnect h =>
    cases h with
    | keeping => rw [Session.ledger_dropRequests]
    | forgetting _ _ hr => cases hr.symm.trans hsp
  | connectionLost h => rw [h.ledger]

/-- The outbound exchanges stay as they are. -/
theorem spares_step (hc : c.WF) {op : Op} (hsp : c.Spares c.version op)
    (hu : Uniform c.version c.session.ledger) :
    (c.step op).client.version = c.version ∧
      (c.step op).client.session.ledger.outbound = c.session.ledger.outbound := by
  rcases step_cases hc op with ⟨e, h⟩ | ⟨a, acts, c', h, hs⟩
  · rw [h]
    exact ⟨rfl, rfl⟩
  refine ⟨?_, h ▸ hs.outbound hc hsp hu⟩
  by_cases hop : ∃ o now, op = .connect o now
  · obtain ⟨o, now, rfl⟩ := hop
    cases hs with
    | connect hs =>
      rw [h, show c'.version = o.version by cases hs <;> rfl]
      exact hsp.1
  · exact version_step hc fun o now heq => hop ⟨o, now, heq⟩

theorem uniform_iff {v : Version} {l : Ledger} :
    Uniform v l ↔ ∀ e ∈ l.outbound, e.version = v := by
  simp [Uniform, mem_outbound]

theorem spares_after {ops : List Op} (hc : c.WF) (hsp : c.Throughout (Spares c.version) ops)
    (hu : Uniform c.version c.session.ledger) :
    (c.after ops).version = c.version ∧
      (c.after ops).session.ledger.outbound = c.session.ledger.outbound := by
  induction ops generalizing c with
  | nil => exact ⟨rfl, rfl⟩
  | cons op ops ih =>
    obtain ⟨hop, hops⟩ := hsp
    obtain ⟨hv, hl⟩ := spares_step hc hop hu
    have hu' : Uniform (c.step op).client.version (c.step op).client.session.ledger := by
      rw [uniform_iff, hv, hl, ← uniform_iff]
      exact hu
    obtain ⟨hv', hl'⟩ := ih (wf_step hc op) (by rwa [hv]) hu'
    exact ⟨hv'.trans hv, hl'.trans hl⟩

/-! ## Sending again -/

/-- What sends an outbound exchange again: its PUBLISH with the DUP bit set, or its PUBREL. -/
theorem replay_cases {e : Exchange} (h : e.check = .ok ()) (hd : e.direction = .outbound) :
    e.awaits = .pubComp ∧ e.replay = e.frame ∨
      (e.awaits = .pubAck ∨ e.awaits = .pubRec) ∧
        ∃ first rest, e.frame = first :: rest ∧ e.replay = (first ||| 0x08) :: rest := by
  by_cases ha : e.awaits = .pubComp
  · exact .inl ⟨ha, if_pos ha⟩
  refine .inr ⟨?_, ?_⟩
  · rcases Exchange.awaits_outbound h hd with ⟨ha', -⟩ | ⟨ha', -⟩ | ⟨ha', -⟩
    · exact .inl ha'
    · exact .inr ha'
    · exact absurd ha' ha
  · have hm := Exchange.markDup_frame h hd ha
    cases hf : e.frame with
    | nil => rw [hf] at hm; cases hm
    | cons first rest => exact ⟨first, rest, rfl, by rw [Exchange.replay, if_neg ha, hf]⟩

theorem frames_greeting (c : Client) (p : ConnAck) (es : List Exchange) :
    (c.greeting p ++ es.map (Action.send ·.replay)).filterMap Action.frame? =
      es.map Exchange.replay := by
  have hgreeting : (c.greeting p).filterMap Action.frame? = [] := by
    unfold greeting
    split <;> rfl
  rw [List.filterMap_append, hgreeting, List.nil_append, List.filterMap_map,
    ← List.filterMap_eq_map]
  rfl

theorem changesOf_sends (es : List Exchange) :
    changesOf (es.map (Action.send ·.replay)) = [] := by
  simp [changesOf, Action.change?]

/-- When the server has kept the session and every outbound exchange is in the version of the
connection, each is sent again, in order, and nothing of the session changes. The same frames are
sent whenever the session is resumed later, until a message is published, acknowledged or given up
or the session is forgotten. -/
theorem resumption_replays (options : ClientOptions) (ops : List Op) {p : ConnAck}
    (hp : ((new options).after ops).phase = .connecting)
    (hu : Uniform ((new options).after ops).version ((new options).after ops).session.ledger)
    (hr : p.reason.isError = false) (hs : p.sessionPresent) :
    let c := (new options).after ops
    let o := c.step (.receive (.connAck p))
    let es := c.session.ledger.toList.filter (·.direction = .outbound)
    o.result = .ok none ∧
      o.actions = c.greeting p ++ es.map (Action.send ·.replay) ∧
      o.actions.filterMap Action.frame? = es.map Exchange.replay ∧
      (∀ change, .persist change ∉ o.actions) ∧
      o.client.session.ledger = c.session.ledger ∧ o.client.session.ids = c.session.ids ∧
      (∀ e ∈ es, e.awaits = .pubComp ∧ e.replay = e.frame ∨
        (e.awaits = .pubAck ∨ e.awaits = .pubRec) ∧
          ∃ first rest, e.frame = first :: rest ∧ e.replay = (first ||| 0x08) :: rest) ∧
      ∀ {between : List Op} {q : ConnAck}, c.Throughout (Spares c.version) between →
        (c.after between).phase = .connecting → q.reason.isError = false → q.sessionPresent →
          ((c.after between).step (.receive (.connAck q))).actions.filterMap Action.frame? =
            es.map Exchange.replay := by
  intro c o es
  have hc : c.WF := wf_after (wf_new options) ops
  have ho : o = ⟨.ok none, c.greeting p ++ es.map (Action.send ·.replay), c.welcomed p⟩ :=
    step_resume_uniform hc (.inl rfl) hp hr hs hu
  rw [ho]
  refine ⟨rfl, rfl, frames_greeting c p es, fun change hmem => ?_, ledger_welcomed c p, ?_, ?_, ?_⟩
  · have hchange := mem_changesOf.2 hmem
    rw [changesOf_append, changesOf_greeting, changesOf_sends] at hchange
    cases hchange
  · rw [Reaction.welcomed_session]
  · intro e he
    obtain ⟨hmem, hd⟩ := mem_outbound.1 he
    exact replay_cases (hc.session.checks e hmem) hd
  · intro between q hsp hphase hqr hqs
    obtain ⟨hv, hl⟩ := spares_after hc hsp hu
    have hu' : Uniform (c.after between).version (c.after between).session.ledger := by
      rw [uniform_iff, hv, hl, ← uniform_iff]
      exact hu
    rw [step_resume_uniform (wf_after hc between) (.inl rfl) hphase hqr hqs hu', hl]
    exact frames_greeting _ q es

/-- To ask for a session that is kept for a minute. -/
def asksAt (now : Nat) : Op :=
  .connect { clientId := "c", cleanStart := false, properties := { sessionExpiry := some 60 } } now

/-- CONNACK, with a session or without one. -/
def accepts (sessionPresent : Bool) : Op :=
  .receive (.connAck ⟨sessionPresent, .success, .empty, .v5⟩)

/-- Three messages are published, and the second one is released; then the connection is lost, and
another one is asked for. -/
def publishesThree : List Op :=
  let message (qos : QoS) : Publish := ⟨"t", none, [1], qos, false, false, .empty, .v5⟩
  [asksAt 0, accepts false, .request (.publish (message .exactlyOnce)),
    .request (.publish (message .exactlyOnce)), .request (.publish (message .atLeastOnce)),
    .receive (.ack .pubRec (.ofReason 2 .success)), .connectionLost 1, asksAt 2]

/-- The connection that resumes the session is lost as well, and the next one sends the same. -/
theorem resumption_replays_twice :
    let c := (new {}).after publishesThree
    let frames := [[60, 7, 0, 1, 116, 0, 1, 0, 1], [98, 2, 0, 2], [58, 7, 0, 1, 116, 0, 3, 0, 1]]
    c.phase = .connecting ∧ Uniform c.version c.session.ledger ∧
      (c.step (accepts true)).actions.filterMap Action.frame? = frames ∧
      ((c.after [accepts true, .connectionLost 3, asksAt 4]).step (accepts true)).actions.filterMap
        Action.frame? = frames := by
  have hphase : ((new {}).after publishesThree).phase = .connecting := by cbv
  have hledger : ((new {}).after publishesThree).session.ledger.toList =
      [⟨1, .outbound, .pubRec, .exactlyOnce, [52, 7, 0, 1, 116, 0, 1, 0, 1], .v5⟩,
        ⟨2, .outbound, .pubComp, .exactlyOnce, [98, 2, 0, 2], .v5⟩,
        ⟨3, .outbound, .pubAck, .atLeastOnce, [50, 7, 0, 1, 116, 0, 3, 0, 1], .v5⟩] := by cbv
  have hversion : ((new {}).after publishesThree).version = .v5 := by cbv
  have hlater : (((new {}).after publishesThree).after
      [accepts true, .connectionLost 3, asksAt 4]).phase = .connecting := by cbv
  have hexpired : ((((new {}).after publishesThree).step (accepts true)).client.step
      (.connectionLost 3)).client.session.hasExpired 4 = false := by cbv
  have hu : Uniform ((new {}).after publishesThree).version
      ((new {}).after publishesThree).session.ledger := by
    simp [Uniform, hversion, hledger]
  have hspares : ((new {}).after publishesThree).Throughout
      (Spares ((new {}).after publishesThree).version)
      [accepts true, .connectionLost 3, asksAt 4] :=
    ⟨.inr rfl, trivial, ⟨hversion.symm, rfl, hexpired⟩, trivial⟩
  obtain ⟨-, -, hfirst, -, -, -, -, hagain⟩ :=
    resumption_replays {} publishesThree (p := ⟨true, .success, .empty, .v5⟩) hphase hu rfl rfl
  have hsecond := @hagain _ ⟨true, .success, .empty, .v5⟩ hspares hlater rfl rfl
  rw [hledger] at hfirst hsecond
  exact ⟨hphase, hu, hfirst, hsecond⟩

end Client

end Mqtt
