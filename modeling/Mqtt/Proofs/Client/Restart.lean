import Mathlib
import Mqtt.Proofs.Client.Blindness
import Mqtt.Proofs.Client.Persistence

/-!
# Starting again from the records

A new client that takes in the records of another one has the exchanges of that one in their order,
and holds their identifiers. When both resume the session, nothing tells them apart from then on:
`restart_transparent`.

The two differ in the places of their ledgers, which no reaction looks at, and in what they know of
the last connection, which making a connection and having it accepted leaves behind.
-/

namespace Mqtt

/-- A record that fits can be taken in. -/
theorem Session.restore_eq_ok {s : Session} (hs : s.WF) (hi : s.Idle) {e : Exchange}
    (he : e.check = .ok ()) (hk : e.key ∉ s.ledger.keys) : ∃ t, s.restore e = .ok t := by
  obtain ⟨l, hl⟩ := Ledger.insert_eq_ok hs.ledger hk
  rw [restore, if_neg (by rw [hs.ledger.contains_eq_false_iff.2 hk]; decide), hl]
  cases hd : e.direction with
  | inbound => exact ⟨_, rfl⟩
  | outbound =>
    have hfree : s.ids.isHeld e.id = false := by
      rw [← Bool.not_eq_true, hs.isHeld_iff]
      rintro ⟨u, hu⟩
      cases u with
      | publish => exact hk (Exchange.key_eq_outbound.2 ⟨rfl, hd⟩ ▸ hu)
      | subscribe => simp [uses, hi.1] at hu
      | unsubscribe => simp [uses, hi.2] at hu
    obtain ⟨ids, hids⟩ :=
      IdPool.acquireSpecific_eq_ok (Exchange.check_eq_ok_iff.1 he).1 hfree
    rw [hids]
    exact ⟨_, rfl⟩

/-- Without requests, the identifiers held are those of the outbound exchanges. -/
theorem Session.WF.isHeld_iff_of_idle {s : Session} (hs : s.WF) (hi : s.Idle) {id : UInt16} :
    s.ids.isHeld id ↔ .outbound id ∈ s.ledger.keys := by
  rw [hs.isHeld_iff]
  constructor
  · rintro ⟨u, hu⟩
    cases u with
    | publish => exact hu
    | subscribe => simp [uses, hi.1] at hu
    | unsubscribe => simp [uses, hi.2] at hu
  · exact fun h => ⟨.publish, h⟩

namespace Client

variable {c d : Client} {options : ClientOptions}

/-! ## Taking in the records -/

/-- A new client that has taken in records of these exchanges, and nothing else. -/
structure Restored (options : ClientOptions) (es : List Exchange) (d : Client) : Prop where
  wf : d.WF
  eq : ∃ l ids, d = { new options with session := { Session.empty with ledger := l, ids } }
  toList : d.session.ledger.toList = es

theorem restored_new (options : ClientOptions) : Restored options [] (new options) :=
  ⟨wf_new options, ⟨.empty, .empty, rfl⟩, by simp [new, Session.empty]⟩

theorem Restored.idle {es : List Exchange} (h : Restored options es d) : d.session.Idle := by
  obtain ⟨l, ids, rfl⟩ := h.eq
  exact ⟨rfl, rfl⟩

theorem Restored.step {es : List Exchange} (h : Restored options es d) {e : Exchange}
    (he : e.check = .ok ()) (hk : e.key ∉ es.map Exchange.key) :
    (d.step (.restore e.id (Record.encode e))).result = .ok none ∧
      Restored options (es ++ [e]) (d.step (.restore e.id (Record.encode e))).client := by
  have hkey : e.key ∉ d.session.ledger.keys := by rwa [Ledger.keys, h.toList]
  obtain ⟨t, ht⟩ := Session.restore_eq_ok h.wf.session h.idle he hkey
  have hdisconnected : d.isDisconnected := by
    obtain ⟨l, ids, rfl⟩ := h.eq
    rfl
  have hrun :
      (Reaction.restore e.id (Record.encode e)).Runs d (.ok ()) [] { d with session := t } := by
    refine Reaction.runs_client.bind ?_
    simp only [hdisconnected, Bool.not_true, Bool.false_eq_true, ↓reduceIte]
    exact (Reaction.runs_lift_ok (Record.decode_encode he)).bind
      (Reaction.runs_session.bind ((Reaction.runs_lift_ok ht).bind (Reaction.runs_updateSession _)))
  have hstep : d.step (.restore e.id (Record.encode e)) =
      ⟨.ok none, [], { d with session := t }⟩ :=
    (hrun.bind (Reaction.runs_pure none)).run_ok
  have hwf := wf_step h.wf (.restore e.id (Record.encode e))
  rw [hstep] at hwf ⊢
  obtain ⟨ids, l, rfl, hinsert, -⟩ := Session.restore_inv ht
  refine ⟨rfl, hwf, ?_, ?_⟩
  · obtain ⟨l', ids', rfl⟩ := h.eq
    exact ⟨l, ids, rfl⟩
  · rw [Ledger.toList_insert h.wf.session.ledger hinsert, h.toList]

/-- Records of different exchanges are all taken in, in their order. -/
theorem Restored.restoreAll {es xs : List Exchange} (h : Restored options es d)
    (hcheck : ∀ e ∈ xs, e.check = .ok ()) (hkeys : ((es ++ xs).map Exchange.key).Nodup) :
    (d.restoreAll (xs.map fun e => (e.key, Record.encode e))).1 = xs.map (fun e => .ok e.key) ∧
      Restored options (es ++ xs) (d.restoreAll (xs.map fun e => (e.key, Record.encode e))).2 := by
  induction xs generalizing es d with
  | nil => exact ⟨rfl, by rwa [List.append_nil]⟩
  | cons e xs ih =>
    have hk : e.key ∉ es.map Exchange.key := by
      rw [List.map_append, List.nodup_append] at hkeys
      exact fun hmem => hkeys.2.2 _ hmem _ (List.mem_map_of_mem List.mem_cons_self) rfl
    obtain ⟨hresult, hstep⟩ := h.step (hcheck e List.mem_cons_self) hk
    obtain ⟨hresults, hrestored⟩ := ih hstep
      (fun x hx => hcheck x (List.mem_cons_of_mem e hx)) (by simpa using hkeys)
    rw [List.append_assoc] at hrestored
    refine ⟨?_, hrestored⟩
    simp only [List.map_cons, Client.restoreAll]
    exact congrArg₂ List.cons (congrArg (Except.map _) hresult) hresults

/-- Starting again from the records of a well-formed ledger. -/
theorem restored_ofLedger (options : ClientOptions) {s : Session} (hs : s.WF) :
    ((new options).restoreAll (Sink.ofLedger s.ledger).records).1 =
        (Sink.ofLedger s.ledger).records.map (fun r => .ok r.1) ∧
      Restored options s.ledger.toList
        ((new options).restoreAll (Sink.ofLedger s.ledger).records).2 := by
  have h := (restored_new options).restoreAll hs.checks hs.ledger.nodup_keys
  refine ⟨h.1.trans ?_, h.2⟩
  rw [Sink.ofLedger, List.map_map]
  rfl

/-! ## Resuming the session -/

/-- The clients differ in the places of their ledgers and in when their connections ended. -/
def AlikeButEnd (c d : Client) : Prop :=
  ∃ l a, c.session.ledger.Same l ∧
    d = { c with session := { c.session with ledger := l, endedAt := a } }

namespace AlikeButEnd

open Reaction

theorem overrides (h : c.AlikeButEnd d) (properties : Properties) :
    (Reaction.overrides properties c).AlikeButEnd (Reaction.overrides properties d) := by
  obtain ⟨l, a, hl, rfl⟩ := h
  unfold Reaction.overrides
  dsimp only
  split
  · exact ⟨l, a, hl, rfl⟩
  · exact ⟨l, a, hl, rfl⟩

/-- When the last connection ended is forgotten with the next one. -/
theorem greet (h : c.AlikeButEnd d) (p : ConnAck) :
    AgreeAt Eq (Reaction.greet p) (Reaction.greet p) c d := by
  obtain ⟨l, a, hl, rfl⟩ := h
  exact .of_runs (runs_update _) (runs_update _) (blind_announce p _ _ ⟨l, hl, rfl⟩)

theorem accepted (h : c.AlikeButEnd d) (p : ConnAck) :
    AgreeAt Eq (Reaction.accepted p) (Reaction.accepted p) c d := by
  rw [accepted_eq]
  refine .of_runs (runs_update _) (runs_update _) (.of_runs runs_session runs_session ?_)
  obtain ⟨l, a, hl, hd⟩ := h.overrides p.properties
  rw [hd]
  have hempty :
      { (Reaction.overrides p.properties c).session with ledger := l, endedAt := a }.isEmpty =
        (Reaction.overrides p.properties c).session.isEmpty := by
    rw [Session.isEmpty, ← hl.isEmpty, Session.isEmpty]
  dsimp only
  rw [hempty]
  split
  · have herasures : erasures l = erasures (Reaction.overrides p.properties c).session.ledger := by
      rw [erasures, ← hl.keys, erasures]
    refine .of_runs runs_purge (runs_purge.cast herasures rfl) (blind_greet p _ _ ?_)
    exact ⟨l.clear, Ledger.Same.clear _ _, rfl⟩
  · exact AlikeButEnd.greet ⟨l, a, hl, rfl⟩ p

/-- An accepted connection makes the clients alike. -/
theorem joins (h : c.AlikeButEnd d) {p : ConnAck} {op : Op}
    (hop : op = .receive (.connAck p) ∨ op = .handle (.connAck p)) (hp : c.phase = .connecting)
    (hr : p.reason.isError = false) : (c.step op).result = (d.step op).result ∧
      (c.step op).actions = (d.step op).actions ∧ (c.step op).client.Alike (d.step op).client := by
  have hp' : d.phase = .connecting := by
    obtain ⟨l, a, hl, rfl⟩ := h
    exact hp
  have honConnAck : AgreeAt Eq (onConnAck p) (onConnAck p) c d := by
    refine .of_runs runs_client runs_client ?_
    rw [if_neg (not_not.2 hp), if_neg (not_not.2 hp'), if_neg (by rw [hr]; decide)]
    exact h.accepted p
  have hhandle : AgreeAt Eq (handle (.connAck p)) (handle (.connAck p)) c d :=
    honConnAck.tryCatch fun _ => (blind_emit _).bind fun _ => blind_perform _
  rcases hop with rfl | rfl
  · have hreceive : AgreeAt Eq (receive (.connAck p)) (receive (.connAck p)) c d := by
      refine .of_runs runs_client runs_client ?_
      rw [if_neg (by simp [Packet.packetType]), if_neg (by simp [Packet.packetType])]
      exact hhandle
    exact (hreceive.bind fun _ _ _ => blind_pure none).run
  · exact (hhandle.bind fun _ _ _ => blind_pure none).run

end AlikeButEnd

theorem runs_connect {o : ConnectOptions} {now : Nat} {frame : Bytes}
    (hp : c.phase = .disconnected) (hf : (Packet.connect (.ofOptions o)).toBytes = .ok frame)
    (hclean : o.cleanStart = false) (hexp : c.session.hasExpired now = false) :
    (Reaction.connect o now).Runs c (.ok ()) [.send frame] (c.connecting o) := by
  obtain ⟨acts, c', hrun, h⟩ := Reaction.runs_connect hp hf now
  cases h with
  | keeping _ hf' =>
    obtain rfl := Except.ok.inj (hf'.symm.trans hf)
    exact hrun
  | forgetting _ _ hforget => simp [hclean, hexp] at hforget

/-- On a new connection, a client without one and a client that has taken in its records differ
only in their ledgers' places and in when their connections ended. -/
theorem Restored.alikeButEnd {s : Client} (hs : s.WF) (hp : s.phase = .disconnected)
    (h : Restored s.options s.session.ledger.toList d) (o : ConnectOptions) :
    (s.connecting o).AlikeButEnd (d.connecting o) := by
  have hidle : s.session.Idle := hs.idle (by rw [isConnected, hp])
  have hids : d.session.ids = s.session.ids := by
    refine h.wf.session.ids.ext hs.session.ids fun id => ?_
    rw [Bool.eq_iff_iff, h.wf.session.isHeld_iff_of_idle h.idle,
      hs.session.isHeld_iff_of_idle hidle, Ledger.keys, h.toList, Ledger.keys]
  have hsame : s.session.ledger.Same d.session.ledger :=
    ⟨hs.session.ledger, h.wf.session.ledger, h.toList.symm⟩
  obtain ⟨l, ids, rfl⟩ := h.eq
  obtain ⟨hsubscribes, hunsubscribes⟩ := hidle
  obtain rfl : ids = s.session.ids := hids
  refine ⟨l, none, hsame, ?_⟩
  simp only [connecting, hsubscribes, hunsubscribes]
  rfl

/-! ## From then on -/

/-- The results and the actions of operations, in order. -/
def outcomes (c : Client) : List Op → List (Except Error (Option UInt16) × List Action)
  | [] => []
  | op :: ops => ((c.step op).result, (c.step op).actions) :: (c.step op).client.outcomes ops

theorem Alike.outcomes (h : c.Alike d) (ops : List Op) : c.outcomes ops = d.outcomes ops := by
  induction ops generalizing c d with
  | nil => rfl
  | cons op ops ih =>
    obtain ⟨hresult, hactions, hclient⟩ := h.step op
    rw [Client.outcomes, hresult, hactions, ih hclient, Client.outcomes]

/-- Resuming the session on a new connection makes the outcomes the same. -/
theorem Restored.outcomes {s : Client} (hs : s.WF) (hp : s.phase = .disconnected)
    (h : Restored s.options s.session.ledger.toList d) {o : ConnectOptions} {now : Nat}
    (hclean : o.cleanStart = false) (hexp : s.session.hasExpired now = false)
    (hconnect : (s.step (.connect o now)).result = .ok none) {p : ConnAck} {op : Op}
    (hop : op = .receive (.connAck p) ∨ op = .handle (.connAck p)) (hr : p.reason.isError = false)
    (later : List Op) :
    s.outcomes (.connect o now :: op :: later) = d.outcomes (.connect o now :: op :: later) := by
  obtain ⟨frame, hf⟩ : ∃ frame, (Packet.connect (.ofOptions o)).toBytes = .ok frame := by
    rcases step_cases hs (.connect o now) with ⟨e, hstep⟩ | ⟨a, acts, c', hstep, hsteps⟩
    · rw [hstep] at hconnect
      cases hconnect
    · cases hsteps with
      | connect h => cases h <;> exact ⟨_, ‹_›⟩
  have hrestored : d.phase = .disconnected ∧ d.session.hasExpired now = false := by
    obtain ⟨l, ids, rfl⟩ := h.eq
    exact ⟨rfl, rfl⟩
  have hstep : s.step (.connect o now) = ⟨.ok none, [.send frame], s.connecting o⟩ :=
    ((runs_connect hp hf hclean hexp).bind (Reaction.runs_pure none)).run_ok
  have hstep' : d.step (.connect o now) = ⟨.ok none, [.send frame], d.connecting o⟩ :=
    ((runs_connect hrestored.1 hf hclean hrestored.2).bind (Reaction.runs_pure none)).run_ok
  obtain ⟨hresult, hactions, halike⟩ := (h.alikeButEnd hs hp o).joins hop rfl hr
  simp only [Client.outcomes, hstep, hstep', hresult, hactions, halike.outcomes later]

/-- A new client takes in the records that another one has left, in their order. It accepts every
record, has the exchanges of the other in the same order, and holds the identifiers of the outbound
ones. If the other loses its connection, and both then resume the session on a new connection, they
do the same from there on, whatever happens to both. -/
theorem restart_transparent (options : ClientOptions) (ops : List Op) :
    let c := (new options).after ops
    let records := (Sink.empty.applyAll ((new options).history ops)).records
    let restored := ((new options).restoreAll records).2
    ((∀ id data, .restore id data ∉ ops) →
      (new options).history ops = changesOf ((new options).actionsOf ops)) ∧
    ((new options).restoreAll records).1 = records.map (fun r => .ok r.1) ∧
    restored.session.ledger.toList = c.session.ledger.toList ∧
    (∀ id, restored.session.ids.isHeld id ↔ .outbound id ∈ c.session.ledger.keys) ∧
    ∀ (lost now : Nat) (o : ConnectOptions) (p : ConnAck) (op : Op),
      let survivor := (c.step (.connectionLost lost)).client
      o.cleanStart = false → survivor.session.hasExpired now = false →
      (survivor.step (.connect o now)).result = .ok none →
      (op = .receive (.connAck p) ∨ op = .handle (.connAck p)) → p.reason.isError = false →
      ∀ later, survivor.outcomes (.connect o now :: op :: later) =
        restored.outcomes (.connect o now :: op :: later) := by
  intro c records restored
  have hc : c.WF := wf_after (wf_new options) ops
  have hrecords : records = (Sink.ofLedger c.session.ledger).records :=
    congrArg Sink.records (Sink.applyAll_of_followAll (follow_after (wf_new options) ops))
  obtain ⟨hresults, hrestored⟩ := restored_ofLedger options hc.session
  rw [← hrecords] at hresults hrestored
  refine ⟨history_eq, hresults, hrestored.toList, fun id => ?_, ?_⟩
  · rw [hrestored.wf.session.isHeld_iff_of_idle hrestored.idle, Ledger.keys, hrestored.toList,
      Ledger.keys]
  · intro lost now o p op survivor hclean hexp hconnect hop hr later
    obtain ⟨acts, s, hloses, hstep⟩ := step_connectionLost c lost
    have hsurvivor : survivor = s := congrArg Outcome.client hstep
    have hs : survivor.WF := wf_step hc _
    have hoptions : survivor.options = options :=
      (options_step hc _).trans (options_after (wf_new options) ops)
    have hledger : survivor.session.ledger = c.session.ledger := hsurvivor ▸ hloses.ledger
    have hphase : survivor.phase = .disconnected := hsurvivor ▸ hloses.phase
    have hrestored' : Restored survivor.options survivor.session.ledger.toList restored := by
      rw [hledger, hoptions]
      exact hrestored
    exact hrestored'.outcomes hs hphase hclean hexp hconnect hop hr later

/-- The first of two messages is acknowledged, and a third one gets its identifier again. So the
exchange with the identifier 1 stands behind the one with 2. -/
def reused : List Op :=
  [.connect { version := .v311, cleanStart := false } 0,
    .receive (.connAck ⟨false, .success, .empty, .v311⟩),
    .request (.publish (.ofMessage "a" [] .atLeastOnce false)),
    .request (.publish (.ofMessage "b" [] .exactlyOnce false)),
    .receive (.ack .pubAck (.ofReason 1 .success)),
    .request (.publish (.ofMessage "c" [] .atLeastOnce false))]

/-- The client that has lost its connection then. -/
def survivor : Client := (((new {}).after reused).step (.connectionLost 5)).client

/-- A new client that has taken in its records. -/
def restarted : Client :=
  ((new {}).restoreAll (Sink.empty.applyAll ((new {}).history reused)).records).2

/-- The session is resumed, and the message with the identifier 2 is received. -/
def resumption : List Op :=
  [.connect { version := .v311, cleanStart := false } 7,
    .receive (.connAck ⟨true, .success, .empty, .v311⟩),
    .receive (.ack .pubRec (.ofReason 2 .success))]

/-- The places differ, and the messages are sent again in the same order. -/
theorem restart_transparent_reused :
    survivor.session.ledger.nextPlace = 3 ∧ restarted.session.ledger.nextPlace = 2 ∧
      survivor.session.hasExpired 7 = false ∧
      (survivor.step (.connect { version := .v311, cleanStart := false } 7)).result = .ok none ∧
      survivor.outcomes resumption = restarted.outcomes resumption ∧
      (restarted.outcomes resumption).map (·.2) =
        [[.send [16, 12, 0, 4, 77, 81, 84, 84, 4, 0, 0, 60, 0, 0]],
          [.emit (.connAck true .success), .keepAlive 60, .send [60, 5, 0, 1, 98, 0, 2],
            .send [58, 5, 0, 1, 99, 0, 1]],
          [.persist (.update (.outbound 2) [1, 0, 7, 2, 4, 0, 2, 98, 2, 0, 2]),
            .send [98, 2, 0, 2], .emit (.ack .pubRec 2 .success)]] := by
  have hexp : survivor.session.hasExpired 7 = false := by cbv
  have hconnect :
      (survivor.step (.connect { version := .v311, cleanStart := false } 7)).result = .ok none := by
    cbv
  obtain ⟨-, -, -, -, hsame⟩ := restart_transparent {} reused
  exact ⟨by cbv, by cbv, hexp, hconnect,
    hsame 5 7 { version := .v311, cleanStart := false } ⟨true, .success, .empty, .v311⟩ _
      rfl hexp hconnect (.inl rfl) rfl [.receive (.ack .pubRec (.ofReason 2 .success))], by cbv⟩

end Client

end Mqtt
