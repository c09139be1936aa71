import Mathlib.Data.List.Infix
import Mqtt.Proofs.Client.Deeds
import Mqtt.Proofs.Client.Survival

/-!
# How far an exchange has come

The frames that a client writes under one identifier, from the start of an exchange to its end: a
PUBLISH, the same PUBLISH again with its DUP bit set, and then PUBREL. `Stage.next` reads actions
and keeps in mind how far that has come; it stops at a frame out of turn.

Whatever happens to a client it does not stop, since the ledger says the same of the exchange
(`Stage.At`): `Deeds.stage` for one operation, `stages_after` for any number of them.
-/

namespace Mqtt

namespace Client

/-- How far the frames of the exchange with an identifier have come. -/
inductive Stage
  /-- There is no exchange. -/
  | idle
  /-- The exchange is recorded, and nothing was sent. -/
  | opened
  /-- The message was published, with this frame at first. -/
  | published (first : Bytes)
  | released
  deriving DecidableEq

namespace Stage

/-- A frame of the exchange is written. If `same` is set, a PUBLISH is sent again with nothing but
its DUP bit changed. -/
def onFrame (same : Bool) (frame : Bytes) : PacketType → Bool → Stage → Option Stage
  | .publish, false, .opened => some (.published frame)
  | .publish, true, .published first =>
    if same = true → Publish.markDup first = .ok frame then some (.published first) else none
  | .pubRel, false, .published _ | .pubRel, false, .released => some .released
  | .publish, _, _ | .pubRel, _, _ => none
  | _, _, s => some s

/-- Read an action. -/
def next (p : UInt16) (same : Bool) (s : Stage) (a : Action) : Option Stage :=
  match a with
  | .send frame =>
    match Role.ofFrame? frame with
    | some r => if r.id = p then s.onFrame same frame r.type r.repeated else some s
    | none => some s
  | .persist (.store k _) =>
    if k = .outbound p then if s = .idle then some .opened else none else some s
  | .persist (.erase k) =>
    if k = .outbound p then if s = .opened then none else some .idle else some s
  | .persist (.update _ _) | .emit _ | .keepAlive _ | .close => some s

variable {p : UInt16} {same : Bool} {s s' : Stage} {acts : List Action}

theorem next_send {frame : Bytes} {r : Role} (hr : Role.ofFrame? frame = some r) :
    s.next p same (.send frame) =
      if r.id = p then s.onFrame same frame r.type r.repeated else some s := by
  simp only [next, hr]

/-- A frame of another exchange says nothing. -/
theorem next_other {frame : Bytes} (h : ∀ r, Role.ofFrame? frame = some r → r.id = p →
    r.type ≠ .publish ∧ r.type ≠ .pubRel) : s.next p same (.send frame) = some s := by
  rcases hr : Role.ofFrame? frame with _ | ⟨t, id, dup⟩
  · simp only [next, hr]
  rw [next_send hr]
  split
  · rename_i hid
    obtain ⟨hpublish, hpubRel⟩ := h _ hr hid
    cases t <;> first | rfl | exact absurd rfl hpublish | exact absurd rfl hpubRel
  · rfl

theorem next_quiet {a : Action} (h : a.Quiet) : s.next p same a = some s := by
  cases a with
  | send => cases h.1
  | persist => cases h.2
  | emit | keepAlive | close => rfl

/-- Actions that each say nothing say nothing. -/
theorem foldlM_next (h : ∀ a ∈ acts, s.next p same a = some s) :
    acts.foldlM (next p same) s = some s := by
  induction acts with
  | nil => rfl
  | cons a acts ih =>
    rw [List.foldlM_cons, h a List.mem_cons_self]
    exact ih fun a ha => h a (List.mem_cons_of_mem _ ha)

theorem foldlM_pair {a b : Action} {t u : Stage} (ha : s.next p same a = some t)
    (hb : t.next p same b = some u) : [a, b].foldlM (next p same) s = some u := by
  rw [List.foldlM_cons, ha]
  change [b].foldlM (next p same) t = some u
  rw [List.foldlM_cons, hb]
  rfl

theorem foldlM_one {a : Action} (ha : s.next p same a = some s') :
    [a].foldlM (next p same) s = some s' := by
  rw [List.foldlM_cons, ha]
  rfl

/-! ## The stage that the ledger shows -/

/-- The ledger shows the stage of the exchange with an identifier. -/
def At (p : UInt16) (same : Bool) (l : Ledger) : Stage → Prop
  | .idle => Key.outbound p ∉ l.keys
  | .opened => False
  | .published first => ∃ e ∈ l.toList, e.key = .outbound p ∧ e.awaits ≠ .pubComp ∧
      (same = true → e.frame = first)
  | .released => ∃ e ∈ l.toList, e.key = .outbound p ∧ e.awaits = .pubComp

variable {l m : Ledger}

/-- What happens to other exchanges does not show. -/
theorem At.congr (h : s.At p same l)
    (hlm : ∀ e : Exchange, e.key = .outbound p → (e ∈ m.toList ↔ e ∈ l.toList)) :
    s.At p same m := by
  cases s with
  | idle =>
    intro hk
    obtain ⟨e, he, hek⟩ := Ledger.mem_keys.1 hk
    exact h (Ledger.mem_keys.2 ⟨e, (hlm e hek).1 he, hek⟩)
  | opened => exact h
  | published first =>
    obtain ⟨e, he, hek, hrest⟩ := h
    exact ⟨e, (hlm e hek).2 he, hek, hrest⟩
  | released =>
    obtain ⟨e, he, hek, hrest⟩ := h
    exact ⟨e, (hlm e hek).2 he, hek, hrest⟩

theorem At.idle_of_not_mem (h : s.At p same l) (hk : Key.outbound p ∉ l.keys) : s = .idle := by
  cases s with
  | idle => rfl
  | opened => exact h.elim
  | published first =>
    obtain ⟨e, he, hek, -⟩ := h
    exact absurd (Ledger.mem_keys.2 ⟨e, he, hek⟩) hk
  | released =>
    obtain ⟨e, he, hek, -⟩ := h
    exact absurd (Ledger.mem_keys.2 ⟨e, he, hek⟩) hk

/-- The exchange tells the stage. -/
theorem At.of_mem (hl : l.WF) (h : s.At p same l) {e : Exchange} (he : e ∈ l.toList)
    (hek : e.key = .outbound p) :
    if e.awaits = .pubComp then s = .released
    else ∃ first, s = .published first ∧ (same = true → e.frame = first) := by
  cases s with
  | idle => exact absurd (Ledger.mem_keys.2 ⟨e, he, hek⟩) h
  | opened => exact h.elim
  | published first =>
    obtain ⟨x, hx, hxk, hxa, hframe⟩ := h
    obtain rfl := hl.eq_of_key_eq hx he (hxk.trans hek.symm)
    rw [if_neg hxa]
    exact ⟨first, rfl, hframe⟩
  | released =>
    obtain ⟨x, hx, hxk, hxa⟩ := h
    obtain rfl := hl.eq_of_key_eq hx he (hxk.trans hek.symm)
    rw [if_pos hxa]

theorem mem_moved {e e' x : Exchange} (h : Ledger.Moved l e e' m)
    (hx : x.key ≠ e.key) : x ∈ m.toList ↔ x ∈ l.toList := by
  rw [h.toList, List.mem_map]
  constructor
  · rintro ⟨y, hy, heq⟩
    split at heq
    · rename_i hk
      rw [← heq, h.key] at hx
      exact absurd rfl hx
    · exact heq ▸ hy
  · intro hmem
    exact ⟨x, hmem, if_neg hx⟩

theorem foldlM_erase (hs : s ≠ .opened) (ks : List Key) :
    (ks.map fun k => Action.persist (.erase k)).foldlM (next p same) s =
      some (if Key.outbound p ∈ ks then .idle else s) := by
  induction ks generalizing s with
  | nil => rfl
  | cons k ks ih =>
    rw [List.map_cons, List.foldlM_cons]
    by_cases hk : k = .outbound p
    · have hnext : next p same s (.persist (.erase k)) = some .idle := by
        simp only [next, hk, hs, ↓reduceIte]
      rw [hnext]
      refine (ih (by decide)).trans ?_
      simp [hk]
    · have hnext : next p same s (.persist (.erase k)) = some s := by
        simp only [next, hk, ↓reduceIte]
      rw [hnext]
      refine (ih hs).trans ?_
      simp [Ne.symm hk]

/-- Forgetting every exchange leaves none. -/
theorem foldlM_erasures (h : s.At p same l) :
    (Reaction.erasures l).foldlM (next p same) s = some .idle := by
  have hs : s ≠ .opened := by
    rintro rfl
    exact h
  refine (foldlM_erase hs l.keys).trans ?_
  split
  · rfl
  · rw [h.idle_of_not_mem ‹_›]

/-! ### What a deed shows -/

variable {e : Exchange}

/-- The retained frame of another exchange says nothing. -/
theorem next_retained_other (hf : e.Faithful) (hk : e.key ≠ .outbound p) :
    s.next p same (.send e.frame) = some s := by
  refine next_other fun r hr hid => ?_
  obtain rfl := Option.some.inj (hf.symm.trans hr)
  cases hd : e.direction with
  | outbound => exact absurd (Exchange.key_eq_outbound.2 ⟨hid, hd⟩) hk
  | inbound =>
    dsimp only
    rw [Exchange.retains_inbound hd]
    simp

/-- The retained frame of the exchange says how far it has come. -/
theorem next_retained (hf : e.Faithful) (hk : e.key = .outbound p) :
    s.next p same (.send e.frame) =
      s.onFrame same e.frame (if e.awaits = .pubComp then .pubRel else .publish) false := by
  obtain ⟨hid, hd⟩ := Exchange.key_eq_outbound.1 hk
  rw [next_send hf, if_pos hid, Exchange.retains_outbound hd]

theorem At.start (h : s.At p same l) (hf : e.Faithful) (ha : e.awaits ≠ .pubComp)
    (hl : Ledger.Started l e m) :
    ∃ s', [.persist (.started e), .send e.frame].foldlM (next p same) s = some s' ∧
      s'.At p same m := by
  by_cases hk : e.key = .outbound p
  · obtain rfl := h.idle_of_not_mem (hk ▸ hl.fresh)
    have hopened : next p same .idle (.persist (.started e)) = some .opened := by
      simp only [next, Change.started, hk, ↓reduceIte]
    have hpublished : next p same .opened (.send e.frame) = some (.published e.frame) := by
      rw [next_retained hf hk, if_neg ha]
      rfl
    refine ⟨_, foldlM_pair hopened hpublished, e, ?_, hk, ha, fun _ => rfl⟩
    rw [hl.toList]
    exact List.mem_append_right _ List.mem_cons_self
  · have hstarted : next p same s (.persist (.started e)) = some s := by
      simp only [next, Change.started, hk, ↓reduceIte]
    refine ⟨s, foldlM_pair hstarted (next_retained_other hf hk), h.congr fun x hx => ?_⟩
    have hne : x ≠ e := by
      rintro rfl
      exact hk hx
    simp [hl.toList, hne]

theorem At.release (hw : l.WF) (h : s.At p same l) {e' : Exchange} (hf : e'.Faithful)
    (ha : e.awaits ≠ .pubComp) (ha' : e'.awaits = .pubComp) (hl : Ledger.Moved l e e' m) :
    ∃ s', [.persist (.moved e'), .send e'.frame].foldlM (next p same) s = some s' ∧
      s'.At p same m := by
  have hmoved : next p same s (.persist (.moved e')) = some s := rfl
  by_cases hk : e.key = .outbound p
  · have hstage := h.of_mem hw hl.mem hk
    rw [if_neg ha] at hstage
    obtain ⟨first, rfl, -⟩ := hstage
    have hk' : e'.key = .outbound p := hl.key.trans hk
    have hreleased : next p same (.published first) (.send e'.frame) = some .released := by
      rw [next_retained hf hk', if_pos ha']
      rfl
    refine ⟨_, foldlM_pair hmoved hreleased, e', ?_, hk', ha'⟩
    rw [hl.toList]
    exact List.mem_map.2 ⟨e, hl.mem, if_pos rfl⟩
  · have hk' : e'.key ≠ .outbound p := hl.key ▸ hk
    refine ⟨s, foldlM_pair hmoved (next_retained_other hf hk'), h.congr fun x hx => ?_⟩
    exact mem_moved hl fun heq => hk (heq.symm.trans hx)

theorem At.answer (hw : l.WF) (h : s.At p same l) (hf : e.Faithful) (he : e ∈ l.toList)
    (hr : e.retains ≠ .publish) : s.next p same (.send e.frame) = some s := by
  by_cases hk : e.key = .outbound p
  · have hstage := h.of_mem hw he hk
    rw [Exchange.retains_outbound (Exchange.key_eq_outbound.1 hk).2] at hr
    rw [next_retained hf hk]
    split at hstage
    · subst hstage
      rw [if_pos ‹_›]
      rfl
    · rw [if_neg ‹_›] at hr
      exact absurd rfl hr
  · exact next_retained_other hf hk

theorem At.again (hw : l.WF) (h : s.At p same l) {frame : Bytes} (hf : e.Faithful)
    (he : e ∈ l.toList) (hd : e.direction = .outbound) (ha : e.awaits ≠ .pubComp)
    (hdup : Publish.markDup e.frame = .ok frame) : s.next p same (.send frame) = some s := by
  have hrole : Role.ofFrame? frame = some ⟨.publish, e.id, true⟩ := by
    rw [Role.ofFrame?_of_markDup hdup, hf, Exchange.retains_outbound hd, if_neg ha]
    rfl
  rw [next_send hrole]
  split
  · rename_i hid
    have hstage := h.of_mem hw he (Exchange.key_eq_outbound.2 ⟨hid, hd⟩)
    rw [if_neg ha] at hstage
    obtain ⟨first, rfl, hfirst⟩ := hstage
    exact if_pos fun hsame => hfirst hsame ▸ hdup
  · rfl

theorem At.convert (hw : l.WF) (h : s.At p same l) {frame : Bytes} {v : Version}
    (hsame : same = false) (hl : Ledger.Moved l e (e.reframed frame v) m) : s.At p same m := by
  by_cases hk : e.key = .outbound p
  · have hstage := h.of_mem hw hl.mem hk
    have hmem : e.reframed frame v ∈ m.toList := by
      rw [hl.toList]
      exact List.mem_map.2 ⟨e, hl.mem, if_pos rfl⟩
    split at hstage
    · subst hstage
      exact ⟨_, hmem, hk, ‹_›⟩
    · obtain ⟨first, rfl, -⟩ := hstage
      exact ⟨_, hmem, hk, ‹_›, fun h => by rw [hsame] at h; cases h⟩
  · exact h.congr fun x hx => mem_moved hl fun heq => hk (heq.symm.trans hx)

theorem At.finish (hw : l.WF) (h : s.At p same l) (k : Key) :
    ∃ s', s.next p same (.persist (.erase k)) = some s' ∧ s'.At p same (l.erase k) := by
  by_cases hk : k = .outbound p
  · subst hk
    have hs : s ≠ .opened := by
      rintro rfl
      exact h
    refine ⟨.idle, by simp only [next, hs, ↓reduceIte], fun hmem => ?_⟩
    exact ((Session.mem_keys_erase hw).1 hmem).2 rfl
  · refine ⟨s, by simp only [next, hk, ↓reduceIte], h.congr fun x hx => ?_⟩
    have hne : x.key ≠ k := fun heq => hk (heq.symm.trans hx)
    simp [Ledger.toList_erase hw, hne]

end Stage

/-! ## Deeds -/

/-- The outbound exchanges are in a version. -/
def Uniform (v : Version) (l : Ledger) : Prop :=
  ∀ e ∈ l.toList, e.direction = .outbound → e.version = v

/-- While the operation finds a connection or makes one, its version is the given one. -/
def SpeaksIn (c : Client) (op : Op) (v : Version) : Prop :=
  c.isConnected ∨ c.Resuming op → c.version = v

variable {c : Client} {op : Op} {l m : Ledger} {acts : List Action} {p : UInt16}
  {agreed : Option Version} {s : Stage}

theorem uniform_moved {v : Version} {e e' : Exchange} (hu : Uniform v l)
    (hl : Ledger.Moved l e e' m) (he : e'.direction = .outbound → e'.version = v) :
    Uniform v m := by
  intro x hx
  rw [hl.toList, List.mem_map] at hx
  obtain ⟨y, hy, rfl⟩ := hx
  split
  · exact he
  · exact hu y hy

theorem Deed.uniform {v : Version} (hl : l.WF) (hv : c.SpeaksIn op v) (hu : Uniform v l)
    (h : Deed c op l acts m) : Uniform v m := by
  cases h with
  | quiet | plain | answer | repeated | complete | refuse => exact hu
  | start he ha hversion hconn h =>
    intro x hx hd
    rw [h.toList, List.mem_append, List.mem_singleton] at hx
    rcases hx with hx | rfl
    · exact hu x hx hd
    · exact hversion.trans (hv (.inl (hconn hd)))
  | @release e reason m hd ha h => exact uniform_moved hu h fun _ => hu e h.mem hd
  | convert hop hd hne hf h => exact uniform_moved hu h fun _ => hv (.inr hop)
  | finish =>
    intro x hx
    rw [Ledger.toList_erase hl] at hx
    exact hu x (List.mem_filter.1 hx).1
  | forget => simp [Uniform]

/-- A deed takes the stage that the ledger shows to the one that the ledger shows afterwards. -/
theorem Deed.stage (hl : l.WF) (hf : l.Faithful)
    (hv : ∀ v ∈ agreed, c.SpeaksIn op v ∧ Uniform v l) (h : Deed c op l acts m)
    (hs : s.At p agreed.isSome l) :
    ∃ s', acts.foldlM (Stage.next p agreed.isSome) s = some s' ∧ s'.At p agreed.isSome m := by
  cases h with
  | quiet h => exact ⟨s, Stage.foldlM_next fun a ha => Stage.next_quiet (h a ha), hs⟩
  | plain h =>
    refine ⟨s, Stage.foldlM_one (Stage.next_other fun r hr _ => ?_), hs⟩
    rw [h r hr]
    decide
  | start he ha hv hconn h => exact hs.start he ha h
  | release hd ha h =>
    exact hs.release hl (Exchange.faithful_released hd _ _) (by rw [ha]; decide) rfl h
  | answer he hr => exact ⟨s, Stage.foldlM_one (hs.answer hl (hf _ he) he hr), hs⟩
  | repeated hop he hd ha hdup =>
    exact ⟨s, Stage.foldlM_one (hs.again hl (hf _ he) he hd ha hdup), hs⟩
  | convert hop hd hne hconvert h =>
    -- the exchange is in another version than the connection, so the versions are not all the same
    have hsame : agreed.isSome = false := by
      cases agreed with
      | none => rfl
      | some v =>
        obtain ⟨hspeaks, huniform⟩ := hv v rfl
        exact absurd ((huniform _ h.mem hd).trans (hspeaks (.inr hop)).symm) hne
    exact ⟨s, Stage.foldlM_one rfl, hs.convert hl hsame h⟩
  | finish hk =>
    obtain ⟨s', hnext, hs'⟩ := hs.finish hl _
    exact ⟨s', Stage.foldlM_one hnext, hs'⟩
  | forget => exact ⟨.idle, Stage.foldlM_erasures hs, by simp [Stage.At, Ledger.keys]⟩
  | complete hrole hk =>
    refine ⟨s, Stage.foldlM_one (Stage.next_other fun r hr _ => ?_), hs⟩
    obtain rfl := Option.some.inj (hrole.symm.trans hr)
    simp
  | refuse hop hr hrole hk =>
    refine ⟨s, Stage.foldlM_one (Stage.next_other fun r hr _ => ?_), hs⟩
    obtain rfl := Option.some.inj (hrole.symm.trans hr)
    simp

theorem Deeds.stage (hl : l.WF) (hf : l.Faithful)
    (hv : ∀ v ∈ agreed, c.SpeaksIn op v ∧ Uniform v l) (h : Deeds c op l acts m)
    (hs : s.At p agreed.isSome l) :
    (∃ s', acts.foldlM (Stage.next p agreed.isSome) s = some s' ∧ s'.At p agreed.isSome m) ∧
      ∀ v ∈ agreed, Uniform v m := by
  induction h generalizing s with
  | none => exact ⟨⟨s, rfl, hs⟩, fun v hmem => (hv v hmem).2⟩
  | next h _ ih =>
    obtain ⟨s', hfold, hs'⟩ := h.stage hl hf hv hs
    have hv' : ∀ v ∈ agreed, c.SpeaksIn op v ∧ Uniform v _ := fun v hmem =>
      ⟨(hv v hmem).1, h.uniform hl (hv v hmem).1 (hv v hmem).2⟩
    rw [List.foldlM_append, hfold]
    exact ih (h.wf hl) (h.faithful hl hf) hv' hs'

/-! ## Runs -/

/-- Whenever there is a connection in the course of operations, its version is the given one. -/
def SpeaksOnly (c : Client) (v : Version) (ops : List Op) : Prop :=
  ∀ past, past <+: ops → (c.after past).isConnected → (c.after past).version = v

theorem speaksOnly_iff {v : Version} {ops : List Op} : c.SpeaksOnly v ops ↔
    ops.inits.all fun past => !(c.after past).isConnected || (c.after past).version = v := by
  simp only [SpeaksOnly, ← List.mem_inits, List.all_eq_true, Bool.or_eq_true, Bool.not_eq_true',
    decide_eq_true_eq, ← Bool.not_eq_true, ← imp_iff_not_or]

/-- Resuming the session makes a connection in the version that was asked for. -/
theorem Resuming.connects (hc : c.WF) (h : c.Resuming op) :
    (c.step op).client.isConnected ∧ (c.step op).client.version = c.version := by
  obtain ⟨a, hop, hp, hr, hs⟩ := h
  obtain ⟨acts, c', h, hstep⟩ := step_connAck hc a hop
  rw [hstep]
  cases h with
  | unexpected hp' => exact absurd hp hp'
  | refused _ hr' =>
    rw [hr] at hr'
    cases hr'
  | fresh _ _ hs' =>
    rw [hs] at hs'
    cases hs'
  | resumed _ _ _ h =>
    rw [h.frame]
    exact ⟨rfl, version_welcomed a⟩

theorem SpeaksOnly.head {v : Version} {ops : List Op} (hc : c.WF)
    (h : c.SpeaksOnly v (op :: ops)) : c.SpeaksIn op v := by
  rintro (hconn | hresuming)
  · exact h [] (List.nil_prefix) hconn
  · obtain ⟨hconn, hversion⟩ := hresuming.connects hc
    exact hversion.symm.trans (h [op] ⟨ops, rfl⟩ hconn)

theorem SpeaksOnly.tail {v : Version} {ops : List Op} (h : c.SpeaksOnly v (op :: ops)) :
    (c.step op).client.SpeaksOnly v ops :=
  fun past hpast => h (op :: past) (List.cons_prefix_cons.2 ⟨rfl, hpast⟩)

theorem stages_after {ops : List Op} (hc : c.WF) (hf : c.session.ledger.Faithful)
    (hops : Unrestored ops)
    (hv : ∀ v ∈ agreed, c.SpeaksOnly v ops ∧ Uniform v c.session.ledger)
    (hs : s.At p agreed.isSome c.session.ledger) :
    ∃ s', (c.actionsOf ops).foldlM (Stage.next p agreed.isSome) s = some s' ∧
      s'.At p agreed.isSome (c.after ops).session.ledger := by
  induction ops generalizing c s with
  | nil => exact ⟨s, rfl, hs⟩
  | cons op ops ih =>
    have hdeeds := deeds_step hc hops.head
    obtain ⟨⟨s', hfold, hs'⟩, huniform⟩ := hdeeds.stage hc.session.ledger hf
      (fun v hmem => ⟨(hv v hmem).1.head hc, (hv v hmem).2⟩) hs
    rw [actionsOf, List.foldlM_append, hfold]
    exact ih (wf_step hc op) (hdeeds.faithful hc.session.ledger hf) hops.tail
      (fun v hmem => ⟨(hv v hmem).1.tail, huniform v hmem⟩) hs'

end Client

end Mqtt
