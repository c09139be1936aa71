import Mqtt.Client.Receive
import Mqtt.Proofs.Client.Exchanges

/-!
# Sending the outbound exchanges again

`Resumes` says what becomes of one exchange when a session is resumed: its frame is sent again, and
converted before that if it was retained under another version. `Replays` goes through a list of
keys and stops at the first frame that cannot be converted. Exchanges keep their keys and their
places (`Replays.keys`), and what they wait for.
-/

namespace Mqtt

/-- The frame that sends an outbound exchange again: a PUBLISH with its DUP bit set, a PUBREL as it
is. -/
def Exchange.replay (e : Exchange) : Bytes :=
  if e.awaits = .pubComp then e.frame
  else match e.frame with
    | [] => []
    | first :: rest => (first ||| 0x08) :: rest

/-- The exchange with its frame in another version. -/
def Exchange.reframed (e : Exchange) (frame : Bytes) (v : Version) : Exchange :=
  { e with frame, version := v }

theorem Exchange.markDup_frame {e : Exchange} (h : e.check = .ok ()) (hd : e.direction = .outbound)
    (ha : e.awaits ≠ .pubComp) : Publish.markDup e.frame = .ok e.replay := by
  have hretains : e.retains = .publish := by
    rcases awaits_outbound h hd with ⟨ha', -⟩ | ⟨ha', -⟩ | ⟨ha', -⟩
    · rw [retains, hd, ha']
    · rw [retains, hd, ha']
    · exact absurd ha' ha
  have hframe := (check_eq_ok_iff.1 h).2.2
  rw [hretains] at hframe
  unfold frameType at hframe
  cases hf : e.frame with
  | nil => rw [hf] at hframe; cases hframe
  | cons first rest =>
    rw [hf, List.headD_cons] at hframe
    simp only [Publish.markDup, hframe, ↓reduceIte, replay, ha, hf]

namespace Client

/-- What sending one exchange again does. -/
inductive Resumes (c : Client) (e : Exchange) : Except Error Unit → List Action → Client → Prop
  | current (hv : e.version = c.version) : Resumes c e (.ok ()) [.send e.replay] c
  | converted {frame : Bytes} {l : Ledger} (hv : e.version ≠ c.version)
      (hf : Retained.convert e.frame e.version c.version = .ok frame)
      (hl : Ledger.Moved c.session.ledger e (e.reframed frame c.version) l) :
      Resumes c e (.ok ())
        [.persist (.moved (e.reframed frame c.version)), .send (e.reframed frame c.version).replay]
        { c with session := { c.session with ledger := l } }
  | stuck {err : Error} (hv : e.version ≠ c.version)
      (hf : Retained.convert e.frame e.version c.version = .error err) :
      Resumes c e (.error err) [] c

/-- What sending the exchanges with given keys again does. -/
inductive Replays : Client → List Key → Except Error Unit → List Action → Client → Prop
  | done (c : Client) : Replays c [] (.ok ()) [] c
  | next {c c' c'' : Client} {e : Exchange} {ks : List Key} {r : Except Error Unit}
      {acts acts' : List Action} (he : e ∈ c.session.ledger.toList) (hd : e.direction = .outbound)
      (h : Resumes c e (.ok ()) acts c') (hs : Replays c' ks r acts' c'') :
      Replays c (e.key :: ks) r (acts ++ acts') c''
  | stop {c c' : Client} {e : Exchange} {ks : List Key} {err : Error} {acts : List Action}
      (he : e ∈ c.session.ledger.toList) (hd : e.direction = .outbound)
      (h : Resumes c e (.error err) acts c') :
      Replays c (e.key :: ks) (.error err) acts c'

variable {c c' : Client} {e : Exchange} {r : Except Error Unit} {acts : List Action} {ks : List Key}

theorem Resumes.keys (h : Resumes c e r acts c') :
    c'.session.ledger.keys = c.session.ledger.keys := by
  cases h with
  | current | stuck => rfl
  | converted hv hf hl => exact hl.keys

theorem Replays.keys (h : Replays c ks r acts c') :
    c'.session.ledger.keys = c.session.ledger.keys := by
  induction h with
  | done => rfl
  | next he hd h hs ih => exact ih.trans h.keys
  | stop he hd h => exact h.keys

theorem Resumes.frame (h : Resumes c e r acts c') :
    c' = { c with session := { c.session with ledger := c'.session.ledger } } := by
  cases h <;> rfl

/-- Sending exchanges again changes nothing but the ledger. -/
theorem Replays.frame (h : Replays c ks r acts c') :
    c' = { c with session := { c.session with ledger := c'.session.ledger } } := by
  induction h with
  | done => rfl
  | next he hd h hs ih => rw [ih, h.frame]
  | stop he hd h => exact h.frame

theorem Resumes.wf (hc : c.session.WF) (he : e ∈ c.session.ledger.toList)
    (h : Resumes c e r acts c') : c'.session.WF := by
  cases h with
  | current | stuck => exact hc
  | converted hv hf hl =>
    exact hc.move hl (Exchange.check_reframed _ (hc.checks e he) (Retained.type_of_convert hf))

namespace Reaction

theorem runs_again (h : e.check = .ok ()) (hd : e.direction = .outbound) :
    (if e.awaits = .pubComp then send e.frame
      else do send (← Publish.markDup e.frame)).Runs c (.ok ()) [.send e.replay] c := by
  by_cases ha : e.awaits = .pubComp
  · rw [if_pos ha, Exchange.replay, if_pos ha]
    exact runs_send e.frame
  · rw [if_neg ha]
    exact (runs_lift_ok (Exchange.markDup_frame h hd ha)).bind (runs_send _)

theorem runs_resume (hc : c.session.WF) (he : e ∈ c.session.ledger.toList)
    (hd : e.direction = .outbound) :
    ∃ r acts c', (resume e.key).Runs c r acts c' ∧ Resumes c e r acts c' := by
  have hcheck := hc.checks e he
  have hget : c.session.ledger.get? e.key = some e := hc.ledger.get?_eq_some_iff.2 ⟨he, rfl⟩
  unfold resume
  by_cases hv : e.version = c.version
  · have hframe : (currentFrame e.key e).Runs c (.ok e.frame) [] c := by
      refine runs_client.bind ?_
      rw [if_pos hv]
      exact runs_pure e.frame
    refine ⟨_, _, c, runs_session.bind ?_, .current hv⟩
    rw [hget]
    exact hframe.bind (runs_again hcheck hd)
  rcases hf : Retained.convert e.frame e.version c.version with err | frame
  · have hframe : (currentFrame e.key e).Runs c (.error err) [] c := by
      refine runs_client.bind ?_
      rw [if_neg hv]
      exact (runs_lift_error hf).bind_error
    refine ⟨_, _, c, runs_session.bind ?_, .stuck hv hf⟩
    rw [hget]
    exact hframe.bind_error
  · obtain ⟨l, hl, hreencode⟩ := Session.reencode_eq hc.ledger frame c.version he
    have hcheck' := Exchange.check_reframed c.version hcheck (Retained.type_of_convert hf)
    have hframe : (currentFrame e.key e).Runs c (.ok frame)
        [.persist (.moved (e.reframed frame c.version))]
        { c with session := { c.session with ledger := l } } := by
      refine runs_client.bind ?_
      rw [if_neg hv]
      exact (runs_lift_ok hf).bind ((runs_record hreencode).bind (runs_pure frame))
    refine ⟨_, _, _, runs_session.bind ?_, .converted hv hf hl⟩
    rw [hget]
    exact hframe.bind (runs_again (e := e.reframed frame c.version) hcheck' hd)

theorem runs_replay (hc : c.session.WF)
    (hks : ∀ k ∈ ks, k ∈ c.session.ledger.keys ∧ k.direction = .outbound) :
    ∃ r acts c', (ks.forM resume).Runs c r acts c' ∧ Replays c ks r acts c' := by
  induction ks generalizing c with
  | nil => exact ⟨_, _, c, runs_pure (), .done c⟩
  | cons k ks ih =>
    obtain ⟨hk, hd⟩ := hks k List.mem_cons_self
    obtain ⟨e, he, rfl⟩ := Ledger.mem_keys.1 hk
    obtain ⟨r, acts, c', hrun, h⟩ := runs_resume hc he hd
    cases r with
    | error err => exact ⟨_, _, _, hrun.bind_error, .stop he hd h⟩
    | ok u =>
      obtain ⟨r, acts', c'', hrest, hs⟩ := ih (h.wf hc he) fun k hk => by
        rw [h.keys]
        exact hks k (List.mem_cons_of_mem _ hk)
      exact ⟨r, _, c'', hrun.bind hrest, .next he hd h hs⟩

/-- The keys of the outbound exchanges, in order. -/
def outboundKeys (l : Ledger) : List Key := l.keys.filter (·.direction = .outbound)

theorem runs_resumeAll (hc : c.session.WF) :
    ∃ r acts c', resumeAll.Runs c r acts c' ∧
      Replays c (outboundKeys c.session.ledger) r acts c' := by
  have hks : ∀ k ∈ outboundKeys c.session.ledger,
      k ∈ c.session.ledger.keys ∧ k.direction = .outbound := fun k hk => by
    simpa [outboundKeys] using hk
  obtain ⟨r, acts, c', hrun, h⟩ := runs_replay hc hks
  exact ⟨r, acts, c', runs_session.bind hrun, h⟩

end Reaction

end Client

end Mqtt
