import Mathlib
import Mqtt.Proofs.Client.Stage

/-!
# What is sent in an outbound exchange

`transmitted` picks the frames of one exchange out of the actions of a client. While they are read
without a stop (`Stage.next`), one PUBLISH comes first, then PUBLISH sent again, then PUBREL
(`transmitted_opened`). `transmitted_in_order` says this of every exchange of a new client, and when
a PUBLISH is sent again.
-/

namespace Mqtt

namespace Client

variable {c : Client} {op : Op} {l m : Ledger} {acts : List Action} {p : UInt16} {s : Stage}

/-- The frame that an action writes, if it is a PUBLISH above QoS 0 or a PUBREL with an
identifier. -/
def Action.transmits? (p : UInt16) (a : Action) : Option Bytes := do
  let frame ← a.frame?
  let r ← Role.ofFrame? frame
  if r.id = p ∧ (r.type = .publish ∨ r.type = .pubRel) then some frame else none

/-- The frames of the exchange with an identifier that actions write, in order. -/
def transmitted (p : UInt16) (acts : List Action) : List Bytes :=
  acts.filterMap (Action.transmits? p)

section Frames

variable {same : Bool} {s' : Stage} {frame : Bytes}

theorem transmits?_eq_some_iff {a : Action} :
    a.transmits? p = some frame ↔ a = .send frame ∧ ∃ r, Role.ofFrame? frame = some r ∧
      r.id = p ∧ (r.type = .publish ∨ r.type = .pubRel) := by
  cases a with
  | send f =>
    rcases hr : Role.ofFrame? f with _ | r
    · simp only [Action.transmits?, Action.frame?, hr, Option.bind_eq_bind, Option.bind_some,
        Option.bind_none, reduceCtorEq, Action.send.injEq, false_iff, not_and]
      rintro rfl ⟨r, hr', -⟩
      rw [hr] at hr'
      cases hr'
    · simp only [Action.transmits?, Action.frame?, hr, Option.bind_eq_bind, Option.bind_some,
        Option.ite_none_right_eq_some, Option.some.injEq, Action.send.injEq]
      constructor
      · rintro ⟨h, rfl⟩
        exact ⟨rfl, r, hr, h⟩
      · rintro ⟨rfl, r', hr', h⟩
        obtain rfl := Option.some.inj (hr.symm.trans hr')
        exact ⟨h, rfl⟩
  | emit | persist | keepAlive | close => simp [Action.transmits?, Action.frame?]

/-- What is not a frame of the exchange leaves the stage of the exchange, until it ends. -/
theorem Stage.next_silent {a : Action} (h : s.next p same a = some s') (hs : s ≠ .idle)
    (ha : a.transmits? p = none) (hne : .persist (.erase (.outbound p)) ≠ a) : s' = s := by
  cases a with
  | send f =>
    have hother : s.next p same (.send f) = some s := by
      refine next_other fun r hr hid => not_or.1 fun htype => ?_
      rw [transmits?_eq_some_iff.2 ⟨rfl, r, hr, hid, htype⟩] at ha
      cases ha
    exact Option.some.inj (h.symm.trans hother)
  | persist x =>
    cases x with
    | store k =>
      simp only [next, hs, ↓reduceIte] at h
      split at h
      · cases h
      · exact (Option.some.inj h).symm
    | update => exact (Option.some.inj h).symm
    | erase k =>
      have hk : k ≠ .outbound p := fun hk => hne (hk ▸ rfl)
      simp only [next, hk, ↓reduceIte] at h
      exact (Option.some.inj h).symm
  | emit | keepAlive | close => exact (Option.some.inj h).symm

/-- The first frame of the exchange. -/
theorem Stage.next_opened {a : Action} (ha : a.transmits? p = some frame)
    (h : next p same .opened a = some s') :
    Role.ofFrame? frame = some ⟨.publish, p, false⟩ ∧ s' = .published frame := by
  obtain ⟨rfl, ⟨t, id, dup⟩, hr, rfl, htype⟩ := transmits?_eq_some_iff.1 ha
  rw [next_send hr, if_pos rfl] at h
  rcases htype with rfl | rfl <;> cases dup <;> cases h
  exact ⟨hr, rfl⟩

/-- A frame of the exchange after the first, while no PUBREL was sent. -/
theorem Stage.next_published {a : Action} {first : Bytes} (ha : a.transmits? p = some frame)
    (h : next p same (.published first) a = some s') :
    (Role.ofFrame? frame = some ⟨.publish, p, true⟩ ∧
        (same = true → Publish.markDup first = .ok frame) ∧ s' = .published first) ∨
      Role.ofFrame? frame = some ⟨.pubRel, p, false⟩ ∧ s' = .released := by
  obtain ⟨rfl, ⟨t, id, dup⟩, hr, rfl, htype⟩ := transmits?_eq_some_iff.1 ha
  rw [next_send hr, if_pos rfl] at h
  rcases htype with rfl | rfl <;> cases dup
  · cases h
  · rw [onFrame] at h
    split at h
    · exact .inl ⟨hr, ‹_›, (Option.some.inj h).symm⟩
    · cases h
  · exact .inr ⟨hr, (Option.some.inj h).symm⟩
  · cases h

/-- A frame of the exchange after the first PUBREL. -/
theorem Stage.next_released {a : Action} (ha : a.transmits? p = some frame)
    (h : next p same .released a = some s') :
    Role.ofFrame? frame = some ⟨.pubRel, p, false⟩ ∧ s' = .released := by
  obtain ⟨rfl, ⟨t, id, dup⟩, hr, rfl, htype⟩ := transmits?_eq_some_iff.1 ha
  rw [next_send hr, if_pos rfl] at h
  rcases htype with rfl | rfl <;> cases dup <;> cases h
  exact ⟨hr, rfl⟩

theorem foldlM_cons_eq_some {a : Action} {t : Stage}
    (h : (a :: acts).foldlM (Stage.next p same) s = some t) :
    ∃ s', s.next p same a = some s' ∧ acts.foldlM (Stage.next p same) s' = some t := by
  rw [List.foldlM_cons] at h
  exact Option.bind_eq_some_iff.1 h

/-- After PUBREL, only PUBREL follows. -/
theorem transmitted_released (hend : .persist (.erase (.outbound p)) ∉ acts)
    (h : acts.foldlM (Stage.next p same) .released = some s') :
    ∀ f ∈ transmitted p acts, Role.ofFrame? f = some ⟨.pubRel, p, false⟩ := by
  induction acts with
  | nil => simp [transmitted]
  | cons a acts ih =>
    obtain ⟨hne, hend⟩ := List.ne_and_not_mem_of_not_mem_cons hend
    obtain ⟨t, hnext, h⟩ := foldlM_cons_eq_some h
    rw [transmitted]
    rcases ha : a.transmits? p with _ | frame
    · obtain rfl := Stage.next_silent hnext nofun ha hne
      rw [List.filterMap_cons_none ha]
      exact ih hend h
    · obtain ⟨hr, rfl⟩ := Stage.next_released ha hnext
      rw [List.filterMap_cons_some ha, List.forall_mem_cons]
      exact ⟨hr, ih hend h⟩

/-- After the first PUBLISH come PUBLISH sent again, then PUBREL. -/
theorem transmitted_published {first : Bytes} (hend : .persist (.erase (.outbound p)) ∉ acts)
    (h : acts.foldlM (Stage.next p same) (.published first) = some s') :
    ∃ again releases, transmitted p acts = again ++ releases ∧
      (∀ f ∈ again, Role.ofFrame? f = some ⟨.publish, p, true⟩ ∧
        (same = true → Publish.markDup first = .ok f)) ∧
      ∀ f ∈ releases, Role.ofFrame? f = some ⟨.pubRel, p, false⟩ := by
  induction acts with
  | nil => exact ⟨[], [], rfl, by simp, by simp⟩
  | cons a acts ih =>
    obtain ⟨hne, hend⟩ := List.ne_and_not_mem_of_not_mem_cons hend
    obtain ⟨t, hnext, h⟩ := foldlM_cons_eq_some h
    rw [transmitted]
    rcases ha : a.transmits? p with _ | frame
    · obtain rfl := Stage.next_silent hnext nofun ha hne
      rw [List.filterMap_cons_none ha]
      exact ih hend h
    · rw [List.filterMap_cons_some ha]
      rcases Stage.next_published ha hnext with ⟨hr, hsame, rfl⟩ | ⟨hr, rfl⟩
      · obtain ⟨again, releases, heq, hagain, hreleases⟩ := ih hend h
        exact ⟨frame :: again, releases, congrArg _ heq,
          List.forall_mem_cons.2 ⟨⟨hr, hsame⟩, hagain⟩, hreleases⟩
      · exact ⟨[], frame :: transmitted p acts, rfl, by simp,
          List.forall_mem_cons.2 ⟨hr, transmitted_released hend h⟩⟩

/-- Once the exchange is recorded, PUBLISH comes first. -/
theorem transmitted_opened (hend : .persist (.erase (.outbound p)) ∉ acts)
    (h : acts.foldlM (Stage.next p same) .opened = some s') (hs : s' ≠ .opened) :
    ∃ first again releases, transmitted p acts = first :: (again ++ releases) ∧
      Role.ofFrame? first = some ⟨.publish, p, false⟩ ∧
      (∀ f ∈ again, Role.ofFrame? f = some ⟨.publish, p, true⟩ ∧
        (same = true → Publish.markDup first = .ok f)) ∧
      ∀ f ∈ releases, Role.ofFrame? f = some ⟨.pubRel, p, false⟩ := by
  induction acts with
  | nil => exact absurd (Option.some.inj h).symm hs
  | cons a acts ih =>
    obtain ⟨hne, hend⟩ := List.ne_and_not_mem_of_not_mem_cons hend
    obtain ⟨t, hnext, h⟩ := foldlM_cons_eq_some h
    rw [transmitted]
    rcases ha : a.transmits? p with _ | frame
    · obtain rfl := Stage.next_silent hnext nofun ha hne
      rw [List.filterMap_cons_none ha]
      exact ih hend h
    · obtain ⟨hr, rfl⟩ := Stage.next_opened ha hnext
      obtain ⟨again, releases, heq, hagain, hreleases⟩ := transmitted_published hend h
      rw [List.filterMap_cons_some ha]
      exact ⟨frame, again, releases, congrArg _ heq, hr, hagain, hreleases⟩

end Frames

/-- A PUBLISH is written with its DUP bit set only to resume the session. -/
theorem Deed.resuming (hf : l.Faithful) (h : Deed c op l acts m) {frame : Bytes}
    (hmem : .send frame ∈ acts) (hr : Role.ofFrame? frame = some ⟨.publish, p, true⟩) :
    c.Resuming op := by
  cases h with
  | quiet h => cases (h _ hmem).1
  | plain h =>
    obtain rfl : frame = _ := by simpa using hmem
    cases h _ hr
  | start he =>
    obtain rfl : frame = _ := by simpa using hmem
    cases he.repeated hr
  | release hd =>
    obtain rfl : frame = _ := by simpa using hmem
    cases (Exchange.faithful_released hd _ _).repeated hr
  | answer he =>
    obtain rfl : frame = _ := by simpa using hmem
    cases (hf _ he).repeated hr
  | repeated hop | convert hop => exact hop
  | finish => simp at hmem
  | forget => simp [Reaction.erasures] at hmem
  | complete hrole | refuse _ _ hrole =>
    obtain rfl : frame = _ := by simpa using hmem
    cases hrole.symm.trans hr

theorem Deeds.resuming (hl : l.WF) (hf : l.Faithful) (h : Deeds c op l acts m) {frame : Bytes}
    (hmem : .send frame ∈ acts) (hr : Role.ofFrame? frame = some ⟨.publish, p, true⟩) :
    c.Resuming op := by
  induction h with
  | none => simp at hmem
  | next h _ ih =>
    rcases List.mem_append.1 hmem with hmem | hmem
    · exact h.resuming hf hmem hr
    · exact ih (h.wf hl) (h.faithful hl hf) hmem

/-- What is sent in an exchange, if the actions from before it on are read without a stop. -/
theorem transmitted_exchange {same : Bool} {s' : Stage} {data : Bytes}
    {before during rest : List Action}
    (h : (before ++ .persist (.store (.outbound p) data) :: (during ++ rest)).foldlM
      (Stage.next p same) s = some s') (hs : s' ≠ .opened)
    (hduring : .persist (.erase (.outbound p)) ∉ during)
    (hrest : rest = [] ∨ ∃ later, rest = .persist (.erase (.outbound p)) :: later) :
    ∃ first again releases, transmitted p during = first :: (again ++ releases) ∧
      Role.ofFrame? first = some ⟨.publish, p, false⟩ ∧
      (∀ f ∈ again, Role.ofFrame? f = some ⟨.publish, p, true⟩ ∧
        (same = true → Publish.markDup first = .ok f)) ∧
      ∀ f ∈ releases, Role.ofFrame? f = some ⟨.pubRel, p, false⟩ := by
  rw [List.foldlM_append] at h
  obtain ⟨t, -, h⟩ := Option.bind_eq_some_iff.1 h
  obtain ⟨u, hstore, h⟩ := foldlM_cons_eq_some h
  obtain rfl : u = .opened := by
    simp only [Stage.next, ↓reduceIte, Option.ite_none_right_eq_some] at hstore
    exact (Option.some.inj hstore.2).symm
  rw [List.foldlM_append] at h
  obtain ⟨u, hfold, h⟩ := Option.bind_eq_some_iff.1 h
  refine transmitted_opened hduring hfold ?_
  rintro rfl
  rcases hrest with rfl | ⟨later, rfl⟩
  · exact hs (Option.some.inj h).symm
  · obtain ⟨v, herase, -⟩ := foldlM_cons_eq_some h
    simp [Stage.next] at herase

/-- Take the actions of any operations, and an exchange in them, from the action that records it to
the one that erases the record, or to the end. What is sent with its identifier in between is one
PUBLISH with a clear DUP bit, then PUBLISH with the DUP bit set, then PUBREL. While all connections
have the same version, a PUBLISH is sent again with no other bit changed; and it is sent again only
to resume the session. -/
theorem transmitted_in_order (options : ClientOptions) {ops : List Op} {data : Bytes}
    {before during rest : List Action} (hops : ∀ id data, .restore id data ∉ ops)
    (hacts : (new options).actionsOf ops =
      before ++ .persist (.store (.outbound p) data) :: (during ++ rest))
    (hduring : .persist (.erase (.outbound p)) ∉ during)
    (hrest : rest = [] ∨ ∃ later, rest = .persist (.erase (.outbound p)) :: later) :
    (∃ first again releases, transmitted p during = first :: (again ++ releases) ∧
      Role.ofFrame? first = some ⟨.publish, p, false⟩ ∧
      (∀ f ∈ again, Role.ofFrame? f = some ⟨.publish, p, true⟩) ∧
      (∀ f ∈ releases, Role.ofFrame? f = some ⟨.pubRel, p, false⟩) ∧
      ∀ v, (new options).SpeaksOnly v ops → ∀ f ∈ again, Publish.markDup first = .ok f) ∧
    ∀ past op future frame, ops = past ++ op :: future →
      .send frame ∈ (((new options).after past).step op).actions →
      Role.ofFrame? frame = some ⟨.publish, p, true⟩ → ((new options).after past).Resuming op := by
  constructor
  · -- `agreed` is the version of all connections, if there is one
    obtain ⟨agreed, hagreed, hsame⟩ : ∃ agreed : Option Version,
        (∀ v ∈ agreed, (new options).SpeaksOnly v ops) ∧
          ∀ v, (new options).SpeaksOnly v ops → agreed.isSome = true := by
      by_cases h : ∃ v, (new options).SpeaksOnly v ops
      · obtain ⟨v, hv⟩ := h
        exact ⟨some v, fun w hw => Option.some.inj hw ▸ hv, fun _ _ => rfl⟩
      · exact ⟨none, nofun, fun v hv => absurd ⟨v, hv⟩ h⟩
    have hempty : ∀ v ∈ agreed, Uniform v (new options).session.ledger := by
      intro v _ e he
      simp [new, Session.empty] at he
    have hidle : Stage.idle.At p agreed.isSome (new options).session.ledger := by
      simp [Stage.At, new, Session.empty, Ledger.keys]
    obtain ⟨s', hfold, hs'⟩ := stages_after (wf_new options) (faithful_new options) hops
      (fun v hv => ⟨hagreed v hv, hempty v hv⟩) hidle
    rw [hacts] at hfold
    have hopened : s' ≠ .opened := by
      rintro rfl
      exact hs'
    obtain ⟨first, again, releases, heq, hfirst, hagain, hreleases⟩ :=
      transmitted_exchange hfold hopened hduring hrest
    exact ⟨first, again, releases, heq, hfirst, fun f hf => (hagain f hf).1, hreleases,
      fun v hv f hf => (hagain f hf).2 (hsame v hv)⟩
  · rintro past op future frame rfl hmem hr
    have hpast : Unrestored past := fun id data h => hops id data (List.mem_append_left _ h)
    have hnow : Unrestored (op :: future) :=
      fun id data h => hops id data (List.mem_append_right _ h)
    have hc : ((new options).after past).WF := wf_after (wf_new options) past
    exact (deeds_step hc hnow.head).resuming hc.session.ledger
      (faithful_after (wf_new options) (faithful_new options) hpast) hmem hr

/-- A message is published, and the connection is lost before the message is received. -/
def interrupted : List Op :=
  [.connect { version := .v311, cleanStart := false } 0,
    .receive (.connAck ⟨false, .success, .empty, .v311⟩),
    .request (.publish (.ofMessage "t" [7] .exactlyOnce false)), .connectionLost 5,
    .connect { version := .v311, cleanStart := false } 6,
    .receive (.connAck ⟨true, .success, .empty, .v311⟩),
    .receive (.ack .pubRec (.ofReason 1 .success)),
    .receive (.ack .pubComp (.ofReason 1 .success))]

/-- One PUBLISH is sent, then the same with its DUP bit set, then PUBREL. -/
theorem transmitted_in_order_interrupted :
    let hello : Action := .send [16, 12, 0, 4, 77, 81, 84, 84, 4, 0, 0, 60, 0, 0]
    let during : List Action := [.send [52, 6, 0, 1, 116, 0, 1, 7], .emit .close, hello,
      .emit (.connAck true .success), .keepAlive 60, .send [60, 6, 0, 1, 116, 0, 1, 7],
      .persist (.update (.outbound 1) [1, 0, 7, 2, 4, 0, 1, 98, 2, 0, 1]), .send [98, 2, 0, 1],
      .emit (.ack .pubRec 1 .success)]
    (new {}).actionsOf interrupted =
      [hello, .emit (.connAck false .success), .keepAlive 60] ++
        .persist (.store (.outbound 1) [1, 0, 5, 2, 4, 0, 1, 52, 6, 0, 1, 116, 0, 1, 7]) ::
          (during ++
            [.persist (.erase (.outbound 1)), .emit (.ack .pubComp 1 .success)]) ∧
    transmitted 1 during =
      [[52, 6, 0, 1, 116, 0, 1, 7], [60, 6, 0, 1, 116, 0, 1, 7], [98, 2, 0, 1]] ∧
    (∃ first again releases, transmitted 1 during = first :: (again ++ releases) ∧
      Role.ofFrame? first = some ⟨.publish, 1, false⟩ ∧
      (∀ f ∈ again, Role.ofFrame? f = some ⟨.publish, 1, true⟩ ∧
        Publish.markDup first = .ok f) ∧
      ∀ f ∈ releases, Role.ofFrame? f = some ⟨.pubRel, 1, false⟩) ∧
    ((new {}).after (interrupted.take 5)).Resuming
      (.receive (.connAck ⟨true, .success, .empty, .v311⟩)) := by
  intro hello during
  have hacts : (new {}).actionsOf interrupted =
      [hello, .emit (.connAck false .success), .keepAlive 60] ++
        .persist (.store (.outbound 1) [1, 0, 5, 2, 4, 0, 1, 52, 6, 0, 1, 116, 0, 1, 7]) ::
          (during ++
            [.persist (.erase (.outbound 1)), .emit (.ack .pubComp 1 .success)]) := by cbv
  have hops : ∀ id data, .restore id data ∉ interrupted := by simp [interrupted]
  have hduring : .persist (.erase (.outbound 1)) ∉ during := by simp [during, hello]
  have hspeaks : (new {}).SpeaksOnly .v311 interrupted := speaksOnly_iff.2 (by cbv)
  have hsent : (((new {}).after (interrupted.take 5)).step
      (.receive (.connAck ⟨true, .success, .empty, .v311⟩))).actions =
        [.emit (.connAck true .success), .keepAlive 60,
          .send [60, 6, 0, 1, 116, 0, 1, 7]] := by cbv
  obtain ⟨⟨first, again, releases, heq, hfirst, hagain, hreleases, hsame⟩, hresuming⟩ :=
    transmitted_in_order {} hops hacts hduring (.inr ⟨_, rfl⟩)
  have hagain' : ∀ f ∈ again, Role.ofFrame? f = some ⟨.publish, 1, true⟩ ∧
      Publish.markDup first = .ok f :=
    fun f hf => ⟨hagain f hf, hsame .v311 hspeaks f hf⟩
  have hrole : Role.ofFrame? [60, 6, 0, 1, 116, 0, 1, 7] = some ⟨.publish, 1, true⟩ := by cbv
  exact ⟨hacts, by cbv, ⟨first, again, releases, heq, hfirst, hagain', hreleases⟩,
    hresuming (interrupted.take 5) (.receive (.connAck ⟨true, .success, .empty, .v311⟩))
      (interrupted.drop 6) _ rfl (by simp [hsent]) hrole⟩

end Client

end Mqtt
