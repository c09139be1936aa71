import Mathlib
import Mqtt.Proofs.Client.Deeds
import Mqtt.Proofs.Client.Survival

/-!
# Recording before sending

A frame of an exchange is written only when the records are such that nothing is lost if the
process ends right after: the record of a PUBLISH, a PUBREL or a PUBREC holds the frame, unless the
PUBREC refuses the message, and the record of a received message is gone before PUBCOMP. `Vouched`
says so of the records and one frame, and `Backed` of every frame that a list of actions writes.

`Deeds.backed` follows it through a row of deeds; `recorded_before_sent` is what it says of a new
client after any operations.
-/

namespace Mqtt

/-- The record of a key is that of an exchange that retains the frame. -/
def Sink.Holds (s : Sink) (k : Key) (frame : Bytes) : Prop :=
  ∃ e : Exchange, e.key = k ∧ e.frame = frame ∧ s.get? k = some (Record.encode e)

theorem Sink.holds_ofLedger {l : Ledger} (hl : l.WF) {e : Exchange} (he : e ∈ l.toList) :
    (Sink.ofLedger l).Holds e.key e.frame :=
  ⟨e, rfl, rfl, get?_ofLedger hl he⟩

theorem Sink.Holds.isSome {s : Sink} {k : Key} {frame : Bytes} (h : s.Holds k frame) :
    (s.get? k).isSome := by
  obtain ⟨e, -, -, hget⟩ := h
  rw [hget]
  rfl

/-- The change stores the record of an exchange under its key, if it stores any. -/
def Change.Sound : Change → Prop
  | .store k data | .update k data => ∃ e : Exchange, e.key = k ∧ Record.encode e = data
  | .erase _ => True

/-- Every record is that of an exchange with the key. -/
def Sink.Sound (s : Sink) : Prop :=
  ∀ x ∈ s.records, ∃ e : Exchange, e.key = x.1 ∧ Record.encode e = x.2

namespace Sink

variable {s : Sink} {k : Key}

theorem sound_ofLedger (l : Ledger) : (ofLedger l).Sound := by
  intro x hx
  obtain ⟨e, -, rfl⟩ := List.mem_map.1 hx
  exact ⟨e, rfl, rfl⟩

theorem Sound.apply (h : s.Sound) {c : Change} (hc : c.Sound) : (s.apply c).Sound := by
  intro x hx
  cases c with
  | store k data | update k data =>
    rcases mem_go_inv hx with rfl | hx
    · exact hc
    · exact h x hx
  | erase k => exact h x (List.mem_filter.1 hx).1

theorem Sound.applyAll (h : s.Sound) {cs : List Change} (hcs : ∀ c ∈ cs, c.Sound) :
    (s.applyAll cs).Sound := by
  induction cs generalizing s with
  | nil => exact h
  | cons c cs ih =>
    exact ih (h.apply (hcs c List.mem_cons_self)) fun d hd => hcs d (List.mem_cons_of_mem c hd)

theorem Sound.holds (h : s.Sound) (hk : (s.get? k).isSome) : ∃ kept, s.Holds k kept := by
  obtain ⟨data, hdata⟩ := Option.isSome_iff_exists.1 hk
  obtain ⟨e, hek, rfl⟩ := h _ (mem_of_get? hdata)
  exact ⟨e.frame, e, hek, rfl, hdata⟩

end Sink

/-- The key of the exchange that a frame belongs to. -/
def Role.key (r : Role) : Key :=
  match r.type with
  | .publish | .pubRel => .outbound r.id
  | _ => .inbound r.id

namespace Client

/-- What the records say when an operation writes a frame with a role. -/
structure Vouches (op : Op) (s : Sink) (frame : Bytes) (r : Role) : Prop where
  publish : r.type = .publish → ∃ kept, s.Holds (.outbound r.id) kept ∧
    (frame = kept ∨ Publish.markDup kept = .ok frame)
  pubRel : r.type = .pubRel → s.Holds (.outbound r.id) frame
  pubRec : r.type = .pubRec → s.Holds (.inbound r.id) frame ∨ s.get? (.inbound r.id) = none ∧
    ∃ reason : Reason, reason.isError ∧ op = .request (.acknowledge .pubRec r.id reason)
  pubComp : r.type = .pubComp → s.get? (.inbound r.id) = none

/-- A frame is written when the records say what they should. -/
def Vouched (op : Op) (s : Sink) (frame : Bytes) : Prop :=
  ∀ r, Role.ofFrame? frame = some r → Vouches op s frame r

/-- Every frame that actions write is vouched for by the records at that point; the records before
the actions are given. -/
def Backed (op : Op) : Sink → List Action → Prop
  | _, [] => True
  | s, .send frame :: acts => Vouched op s frame ∧ Backed op s acts
  | s, .persist x :: acts => Backed op (s.apply x) acts
  | s, .emit _ :: acts | s, .keepAlive _ :: acts | s, .close :: acts => Backed op s acts

variable {c : Client} {op : Op} {l m : Ledger} {acts acts' : List Action} {s : Sink}

theorem backed_append :
    Backed op s (acts ++ acts') ↔
      Backed op s acts ∧ Backed op (s.applyAll (changesOf acts)) acts' := by
  induction acts generalizing s with
  | nil => simp [Backed, changesOf, Sink.applyAll]
  | cons a acts ih =>
    cases a with
    | send frame => exact (and_congr_right' ih).trans and_assoc.symm
    | persist x => exact ih (s := s.apply x)
    | emit | keepAlive | close => exact ih

theorem backed_quiet (h : ∀ a ∈ acts, a.Quiet) : Backed op s acts := by
  induction acts with
  | nil => trivial
  | cons a acts ih =>
    have ha := h a List.mem_cons_self
    have hacts := ih fun a ha => h a (List.mem_cons_of_mem _ ha)
    cases a with
    | send => cases ha.1
    | persist => cases ha.2
    | emit | keepAlive | close => exact hacts

/-- Changes alone write nothing. -/
theorem backed_erasures (l : Ledger) : Backed op s (Reaction.erasures l) := by
  unfold Reaction.erasures
  induction l.keys generalizing s with
  | nil => trivial
  | cons k ks ih => exact ih

/-- When a frame is written, the records vouch for it. -/
theorem Backed.split {frame : Bytes} (h : Backed op s (acts ++ .send frame :: acts')) :
    Vouched op (s.applyAll (changesOf acts)) frame :=
  (backed_append.1 h).2.1

/-! ## Deeds -/

/-- The retained frame of an exchange in flight is vouched for. -/
theorem vouched_retained (hl : l.WF) {e : Exchange} (he : e ∈ l.toList) (hf : e.Faithful) :
    Vouched op (.ofLedger l) e.frame := by
  intro r hr
  obtain rfl := Option.some.inj (hf.symm.trans hr)
  have hholds := Sink.holds_ofLedger hl he
  cases hd : e.direction with
  | outbound =>
    rw [Exchange.key_eq_outbound.2 ⟨rfl, hd⟩] at hholds
    have hretains := Exchange.retains_outbound hd
    refine ⟨fun _ => ⟨_, hholds, .inl rfl⟩, fun _ => hholds, fun h => ?_, fun h => ?_⟩ <;>
      · dsimp only at h
        rw [hretains] at h
        split at h <;> cases h
  | inbound =>
    rw [Exchange.key_eq_inbound.2 ⟨rfl, hd⟩] at hholds
    have hretains := Exchange.retains_inbound hd
    refine ⟨fun h => ?_, fun h => ?_, fun _ => .inl hholds, fun h => ?_⟩ <;>
      · dsimp only at h
        rw [hretains] at h
        cases h

/-- A PUBLISH that is sent again is vouched for. -/
theorem vouched_repeated (hl : l.WF) {e : Exchange} {frame : Bytes} (he : e ∈ l.toList)
    (hd : e.direction = .outbound) (ha : e.awaits ≠ .pubComp) (hf : e.Faithful)
    (hdup : Publish.markDup e.frame = .ok frame) : Vouched op (.ofLedger l) frame := by
  intro r hr
  have hretains : e.retains = .publish := by rw [Exchange.retains_outbound hd, if_neg ha]
  have hrole := Role.ofFrame?_of_markDup hdup
  rw [hf, hretains] at hrole
  obtain rfl := Option.some.inj (hr.symm.trans hrole)
  have hholds := Sink.holds_ofLedger hl he
  rw [Exchange.key_eq_outbound.2 ⟨rfl, hd⟩] at hholds
  refine ⟨fun _ => ⟨_, hholds, .inr hdup⟩, fun h => ?_, fun h => ?_, fun h => ?_⟩ <;> cases h

/-- A change is recorded before the frame is written that the exchange now retains. -/
theorem backed_recorded {x : Change} {e : Exchange} (hm : m.WF) (hx : s.apply x = .ofLedger m)
    (he : e ∈ m.toList) (hf : e.Faithful) : Backed op s [.persist x, .send e.frame] := by
  refine ⟨?_, trivial⟩
  rw [hx]
  exact vouched_retained hm he hf

theorem Deed.backed (hl : l.WF) (hf : l.Faithful) (h : Deed c op l acts m) :
    Backed op (.ofLedger l) acts := by
  have hm := h.wf hl
  have hfm := h.faithful hl hf
  have hsink := Sink.applyAll_of_followAll (h.follow hl)
  cases h with
  | quiet h => exact backed_quiet h
  | plain h =>
    refine ⟨fun r hr => ?_, trivial⟩
    have htype := h r hr
    refine ⟨fun h => ?_, fun h => ?_, fun h => ?_, fun h => ?_⟩ <;>
      · rw [htype] at h
        cases h
  | @start e m he ha hv hconn h =>
    have hmem : e ∈ m.toList := by
      rw [h.toList]
      exact List.mem_append_right _ List.mem_cons_self
    exact backed_recorded hm hsink hmem he
  | @release e reason m hd ha h =>
    have hmem : e.released c.version reason ∈ m.toList := by
      rw [h.toList]
      exact List.mem_map.2 ⟨e, h.mem, if_pos rfl⟩
    exact backed_recorded hm hsink hmem (hfm _ hmem)
  | answer he hr => exact ⟨vouched_retained hl he (hf _ he), trivial⟩
  | repeated hop he hd ha hdup => exact ⟨vouched_repeated hl he hd ha (hf _ he) hdup, trivial⟩
  | convert => trivial
  | finish => trivial
  | forget => exact backed_erasures l
  | complete hrole hk =>
    refine ⟨fun r hr => ?_, trivial⟩
    obtain rfl := Option.some.inj (hrole.symm.trans hr)
    refine ⟨fun h => ?_, fun h => ?_, fun h => ?_, fun _ => Sink.get?_ofLedger_eq_none hk⟩ <;>
      cases h
  | refuse hop hr hrole hk =>
    refine ⟨fun r hr' => ?_, trivial⟩
    obtain rfl := Option.some.inj (hrole.symm.trans hr')
    refine ⟨fun h => ?_, fun h => ?_,
      fun _ => .inr ⟨Sink.get?_ofLedger_eq_none hk, _, hr, hop⟩, fun h => ?_⟩ <;> cases h

theorem Deeds.backed (hl : l.WF) (hf : l.Faithful) (h : Deeds c op l acts m) :
    Backed op (.ofLedger l) acts := by
  induction h with
  | none => trivial
  | next h _ ih =>
    rw [backed_append, Sink.applyAll_of_followAll (h.follow hl)]
    exact ⟨h.backed hl hf, ih (h.wf hl) (h.faithful hl hf)⟩

/-! ## Runs -/

theorem Deed.sound (h : Deed c op l acts m) : ∀ x, .persist x ∈ acts → x.Sound := by
  intro x hx
  cases h with
  | quiet h => cases (h _ hx).2
  | plain | answer | repeated | complete | refuse => simp at hx
  | start | release | convert =>
    simp only [List.mem_cons, Action.persist.injEq, reduceCtorEq, List.not_mem_nil, or_false] at hx
    exact hx ▸ ⟨_, rfl, rfl⟩
  | finish =>
    simp only [List.mem_cons, Action.persist.injEq, List.not_mem_nil, or_false] at hx
    exact hx ▸ trivial
  | forget =>
    obtain ⟨k, -, hk⟩ := List.mem_map.1 hx
    cases hk
    trivial

theorem Deeds.sound (h : Deeds c op l acts m) : ∀ x, .persist x ∈ acts → x.Sound := by
  induction h with
  | none => simp
  | next h _ ih =>
    intro x hx
    exact (List.mem_append.1 hx).elim (h.sound x) (ih x)

/-- What is stored is the record of an exchange under its key. -/
theorem sound_actionsOf {ops : List Op} (hc : c.WF) (hops : Unrestored ops) :
    ∀ x, .persist x ∈ c.actionsOf ops → x.Sound := by
  induction ops generalizing c with
  | nil => simp [actionsOf]
  | cons op ops ih =>
    intro x hx
    exact (List.mem_append.1 hx).elim ((deeds_step hc hops.head).sound x)
      (ih (wf_step hc op) hops.tail x)

/-- There is a record for every PUBLISH and PUBREL, and for every PUBREC but the one by which the
application refuses a message with an error reason. -/
theorem Vouches.isSome {frame : Bytes} {r : Role} (h : Vouches op s frame r)
    (hr : r.type = .publish ∨ r.type = .pubRel ∨ r.type = .pubRec ∧
      ∀ reason : Reason, reason.isError → op ≠ .request (.acknowledge .pubRec r.id reason)) :
    (s.get? r.key).isSome := by
  rcases hr with hr | hr | ⟨hr, hop⟩ <;> rw [Role.key, hr]
  · obtain ⟨kept, hkept, -⟩ := h.publish hr
    exact hkept.isSome
  · exact (h.pubRel hr).isSome
  · rcases h.pubRec hr with hkept | ⟨-, reason, herror, heq⟩
    · exact hkept.isSome
    · exact absurd heq (hop reason herror)

/-- Take the actions of any operations, and the records that their changes have left by the time
that a frame is written. If the frame is a PUBLISH above QoS 0, the record of its exchange holds it,
up to the DUP bit. If it is a PUBREL, or a PUBREC other than one by which the application refuses a
message with an error reason, the record holds exactly this frame. If it is a PUBCOMP, the record is
gone.

After a PUBLISH, a PUBREL or such a PUBREC there is a record of the exchange wherever the process
may end, until the end of the exchange is reported. -/
theorem recorded_before_sent (options : ClientOptions) {past future : List Op} {op : Op}
    {acts rest : List Action} {frame : Bytes} {r : Role}
    (hops : ∀ id data, .restore id data ∉ past ++ op :: future)
    (hacts : (((new options).after past).step op).actions = acts ++ .send frame :: rest)
    (hr : Role.ofFrame? frame = some r) :
    let c := (new options).after past
    let s := Sink.empty.applyAll (changesOf ((new options).actionsOf past ++ acts))
    (r.type = .publish → ∃ kept, s.Holds (.outbound r.id) kept ∧
      (frame = kept ∨ Publish.markDup kept = .ok frame)) ∧
    (r.type = .pubRel → s.Holds (.outbound r.id) frame) ∧
    (r.type = .pubRec → s.Holds (.inbound r.id) frame ∨ s.get? (.inbound r.id) = none ∧
      ∃ reason : Reason, reason.isError ∧ op = .request (.acknowledge .pubRec r.id reason)) ∧
    (r.type = .pubComp → s.get? (.inbound r.id) = none) ∧
    ((r.type = .publish ∨ r.type = .pubRel ∨ r.type = .pubRec ∧
        ∀ reason : Reason, reason.isError → op ≠ .request (.acknowledge .pubRec r.id reason)) →
      ∀ between, between <+: rest ++ (c.step op).client.actionsOf future →
        .persist (.erase r.key) ∉ between →
        ∃ kept, (s.applyAll (changesOf between)).Holds r.key kept) := by
  intro c s
  have hpast : Unrestored past := fun id data h => hops id data (List.mem_append_left _ h)
  have hnow : Unrestored (op :: future) := fun id data h => hops id data (List.mem_append_right _ h)
  have hc : c.WF := wf_after (wf_new options) past
  have hdeeds := deeds_step hc hnow.head
  have hvouches : Vouches op s frame r := by
    have hbacked := hdeeds.backed hc.session.ledger
      (faithful_after (wf_new options) (faithful_new options) hpast)
    rw [hacts, ← sink_after options hpast] at hbacked
    have hvouched := hbacked.split r hr
    rwa [← Sink.applyAll_append, ← changesOf_append] at hvouched
  refine ⟨hvouches.publish, hvouches.pubRel, hvouches.pubRec, hvouches.pubComp, ?_⟩
  intro htype between hbetween herase
  have hsound : s.Sound := by
    change (Sink.applyAll _ (changesOf (_ ++ acts))).Sound
    rw [changesOf_append, Sink.applyAll_append, sink_after options hpast]
    refine (Sink.sound_ofLedger _).applyAll fun x hx => hdeeds.sound x ?_
    rw [hacts]
    exact List.mem_append_left _ (mem_changesOf.1 hx)
  have hlater : ∀ x ∈ changesOf between, x.Sound := by
    intro x hx
    rcases List.mem_append.1 (hbetween.subset (mem_changesOf.1 hx)) with hx | hx
    · refine hdeeds.sound x ?_
      rw [hacts]
      exact List.mem_append_right _ (List.mem_cons_of_mem _ hx)
    · exact sound_actionsOf (wf_step hc op) hnow.tail x hx
  have hkept := Sink.isSome_get?_applyAll (hvouches.isSome htype) (mt mem_changesOf.1 herase)
  exact (hsound.applyAll hlater).holds hkept

/-- A client of v3.1.1 publishes, loses the connection and comes back with v5.0. -/
def comesBack : List Op :=
  [.connect { version := .v311, cleanStart := false } 0,
    .receive (.connAck ⟨false, .success, .empty, .v311⟩),
    .request (.publish (.ofMessage "t" [1] .exactlyOnce false)), .connectionLost 5,
    .connect { cleanStart := false } 9]

/-- A client that acknowledges by hand is given a message. -/
def givenOne : List Op :=
  [.connect {} 0, .receive (.connAck ⟨false, .success, .empty, .v5⟩),
    .receive (.publish { Publish.ofMessage "t" [1] .exactlyOnce false with id := some 7 })]

/-- The message is converted and sent again. The record holds the converted frame by then, and still
does after the next connection is lost. A PUBREC that the application asks for is recorded before it
is sent, too, and stays so. -/
theorem recorded_before_sent_again :
    (let acts : List Action := [.emit (.connAck true .success), .keepAlive 60,
        .persist (.update (.outbound 1) [1, 0, 5, 2, 5, 0, 1, 52, 7, 0, 1, 116, 0, 1, 0, 1])]
      let s := Sink.empty.applyAll (changesOf ((new {}).actionsOf comesBack ++ acts))
      (((new {}).after comesBack).step
          (.receive (.connAck ⟨true, .success, .empty, .v5⟩))).actions =
            acts ++ .send [60, 7, 0, 1, 116, 0, 1, 0, 1] :: [] ∧
        Role.ofFrame? [60, 7, 0, 1, 116, 0, 1, 0, 1] = some ⟨.publish, 1, true⟩ ∧
        (∃ kept, s.Holds (.outbound 1) kept ∧
          ([60, 7, 0, 1, 116, 0, 1, 0, 1] = kept ∨
            Publish.markDup kept = .ok [60, 7, 0, 1, 116, 0, 1, 0, 1])) ∧
        ∃ kept, (s.applyAll (changesOf [.emit .close])).Holds (.outbound 1) kept) ∧
    (let acts : List Action := [.persist (.store (.inbound 7) [1, 1, 6, 2, 5, 0, 7, 80, 2, 0, 7])]
      let s := Sink.empty.applyAll
        (changesOf ((new { autoAck := false }).actionsOf givenOne ++ acts))
      (((new { autoAck := false }).after givenOne).step
          (.request (.acknowledge .pubRec 7 .success))).actions =
            acts ++ .send [80, 2, 0, 7] :: [] ∧
        Role.ofFrame? [80, 2, 0, 7] = some ⟨.pubRec, 7, false⟩ ∧
        ∃ kept, (s.applyAll (changesOf [.emit .close])).Holds (.inbound 7) kept) := by
  constructor
  · intro acts s
    have hacts : (((new {}).after comesBack).step
        (.receive (.connAck ⟨true, .success, .empty, .v5⟩))).actions =
          acts ++ .send [60, 7, 0, 1, 116, 0, 1, 0, 1] :: [] := by cbv
    have hrole : Role.ofFrame? [60, 7, 0, 1, 116, 0, 1, 0, 1] = some ⟨.publish, 1, true⟩ := by cbv
    have hops : ∀ id data, .restore id data ∉
        comesBack ++ .receive (.connAck ⟨true, .success, .empty, .v5⟩) :: [.connectionLost 12] := by
      simp [comesBack]
    obtain ⟨hpublish, -, -, -, hkept⟩ := recorded_before_sent {} hops hacts hrole
    have hlost : [.emit .close] <+: [] ++
        (((new {}).after comesBack).step
          (.receive (.connAck ⟨true, .success, .empty, .v5⟩))).client.actionsOf
            [.connectionLost 12] := ⟨[], by cbv⟩
    exact ⟨hacts, hrole, hpublish rfl, hkept (.inl rfl) _ hlost (by simp)⟩
  · intro acts s
    have hacts : (((new { autoAck := false }).after givenOne).step
        (.request (.acknowledge .pubRec 7 .success))).actions =
          acts ++ .send [80, 2, 0, 7] :: [] := by cbv
    have hrole : Role.ofFrame? [80, 2, 0, 7] = some ⟨.pubRec, 7, false⟩ := by cbv
    have hops : ∀ id data, .restore id data ∉
        givenOne ++ .request (.acknowledge .pubRec 7 .success) :: [.connectionLost 12] := by
      simp [givenOne]
    -- success refuses nothing
    have hkeeps : ∀ reason : Reason, reason.isError →
        Op.request (.acknowledge .pubRec 7 .success) ≠
          .request (.acknowledge .pubRec 7 reason) := by
      rintro reason herror ⟨⟩
      exact absurd herror (by decide)
    obtain ⟨-, -, -, -, hkept⟩ := recorded_before_sent { autoAck := false } hops hacts hrole
    have hlost : [.emit .close] <+: [] ++
        (((new { autoAck := false }).after givenOne).step
          (.request (.acknowledge .pubRec 7 .success))).client.actionsOf
            [.connectionLost 12] := ⟨[], by cbv⟩
    exact ⟨hacts, hrole, hkept (.inr (.inr ⟨rfl, hkeeps⟩)) _ hlost (by simp)⟩

end Client

end Mqtt
