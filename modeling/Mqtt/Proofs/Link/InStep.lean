import Mathlib
import Mqtt.Link.Operation
import Mqtt.Proofs.Link.Waiting

/-!
# Records that keep step with a link

Whatever a transport does, the records kept outside the process are those of the exchanges in flight
after every operation of a link, as long as it refuses no frame that changes of the records stand
behind: `in_step_while_spared`. Two kinds of frames are exposed in that way (`Exposes`), and a link
that fails to write one drops the changes behind it: `out_of_step_after_disconnect`.
-/

namespace Mqtt

namespace Link

open Link.Task

/-- The frames of an operation that changes of the records may stand behind. -/
inductive Exposes (l : Link) : Op → Bytes → Prop
  /-- The session is forgotten with the connection. -/
  | disconnect {op : Op} {frame : Bytes} (hop : op = .disconnect ∨ ∃ n, op = .run n)
      (ht : PacketType.disconnect.Heads frame) (hr : l.client.session.expiry.retains = false) :
      Exposes l op frame
  /-- Frames are sent again, and some of them are in another version. -/
  | connect {o : ConnectOptions} {frame : Bytes}
      (ht : PacketType.publish.Heads frame ∨ PacketType.pubRel.Heads frame)
      (hv : ¬Client.Uniform o.version l.client.session.ledger) : Exposes l (.connect o) frame

/-- A request exposes nothing; a message that cannot be written is abandoned. -/
theorem not_exposes_request {l : Link} {r : Client.Request} {frame : Bytes} :
    ¬l.Exposes (.request r) frame := by
  rintro ⟨hop | ⟨n, hop⟩, -, -⟩ <;> cases hop

/-- In the course of operations no frame is refused that is exposed. -/
def Spared (l : Link) : List Op → Prop
  | [] => True
  | op :: ops =>
    (∀ frame, .refusedWrite frame ∈ (l.step op).traffic → ¬l.Exposes op frame) ∧
      (l.step op).link.Spared ops

variable {l : Link} {s : Sink} {op : Op}

/-- A task that keeps step, as the task of an operation. -/
theorem Task.Keeps.halts {α : Type} {x : Task α} {F G : Bytes → Prop} {P Q : Client → Prop}
    (h : Keeps s F P Q x) (hP : P l.client) (hFG : ∀ frame, F frame → G frame) :
    Triple (Turn.InStep s (· = l.client)) x (fun _ => Turn.Halted s G) (Turn.Halted s G) :=
  Triple.imp h (fun _ ht => ht.imp fun hc => hc ▸ hP) (fun _ _ ht => ht.halted)
    fun _ ht => ht.imp hFG

/-- An operation keeps the records in step, unless it exposes a frame that is refused. -/
theorem triple_perform (hop : ∀ id data, op ≠ .restore id data) :
    Triple (Turn.InStep s (· = l.client)) op.perform (fun _ => Turn.Halted s (l.Exposes op))
      (Turn.Halted s (l.Exposes op)) := by
  have hdone : ∀ {r : Reply}, Triple (Turn.Halted s (l.Exposes op)) (pure r)
      (fun _ => Turn.Halted s (l.Exposes op)) (Turn.Halted s (l.Exposes op)) :=
    triple_pure fun _ => id
  have haround : ∀ {f : Link → Link} (_ : ∀ l, (f l).client = l.client)
      (_ : ∀ l, (f l).persists = l.persists),
      Triple (Turn.InStep s (· = l.client)) (update f) (fun _ => Turn.Halted s (l.Exposes op))
        (Turn.Halted s (l.Exposes op)) := fun hc hp =>
    (keeps_around hc hp).halts rfl fun _ => id
  cases op with
  | arrive items => exact Triple.bind (haround (fun _ => rfl) fun _ => rfl) fun _ => hdone
  | replaceTransport t => exact Triple.bind (haround (fun _ => rfl) fun _ => rfl) fun _ => hdone
  | advance millis => exact Triple.bind (haround (fun _ => rfl) fun _ => rfl) fun _ => hdone
  | connect o =>
    exact Triple.bind ((keeps_connect o).halts id fun frame h => .connect h.1 h.2) fun _ => hdone
  | request r =>
    exact Triple.map ((keeps_request r).halts trivial fun _ => False.elim) fun _ _ => id
  | restore id data => exact absurd rfl (hop id data)
  | poll => exact Triple.map ((keeps_poll _).halts rfl fun _ => id) fun _ _ => id
  | pollAll =>
    refine Triple.bind (Q := fun _ => Turn.Halted s (l.Exposes .pollAll)) ?_ fun _ => hdone
    exact Triple.imp (leads_pollAll l.client.session.expiry).triple
      (fun _ ht => ht.imp fun hc => congrArg (·.session.expiry) hc) (fun _ _ => id) fun _ => id
  | run stopAfter =>
    refine Triple.bind (Q := fun _ => Turn.Halted s (l.Exposes (.run stopAfter))) ?_ fun _ => hdone
    exact Triple.imp (leads_run _ l.client.session.expiry).triple
      (fun _ ht => ht.imp fun hc => congrArg (·.session.expiry) hc)
      (fun _ _ ht => ht.imp fun _ h => .disconnect (.inr ⟨stopAfter, rfl⟩) h.1 h.2) fun _ => id
  | disconnect =>
    exact Triple.bind ((keeps_disconnect _).halts rfl fun _ h => .disconnect (.inl rfl) h.1 h.2)
      fun _ => hdone
  | forceDisconnect =>
    exact Triple.bind (Keeps.halts (triple_lose Client.lasting_any) trivial fun _ => id)
      fun _ => hdone

/-! ## Runs -/

/-- The sink has the records of the exchanges in flight, and gets what becomes of them. -/
structure Kept (l : Link) (s : Sink) : Prop where
  persists : l.persists
  wf : l.client.WF
  records : s = .ofLedger l.client.session.ledger

theorem Kept.step (h : l.Kept s) (hop : ∀ id data, op ≠ .restore id data)
    (hspared : ∀ frame, .refusedWrite frame ∈ (l.step op).traffic → ¬l.Exposes op frame) :
    (l.step op).link.Kept (s.applyAll (l.step op).changes) := by
  have hstart : Turn.InStep s (· = l.client) { link := l } := ⟨h.persists, h.wf, rfl, h.records⟩
  obtain ⟨t, hlink, htraffic, hchanges, hend⟩ := (triple_perform hop).step hstart
  have ht : t.Halted s (l.Exposes op) := by
    split at hend <;> exact hend
  rw [htraffic] at hspared
  rcases ht with ht | ⟨frame, hexposed, hmem⟩
  · rw [hlink, hchanges]
    refine ⟨ht.persists, ht.wf, ?_⟩
    rw [← ht.records, List.append_nil]
  · exact absurd hexposed (hspared frame hmem)

theorem Kept.after {ops : List Op} (h : l.Kept s) (hops : ∀ id data, .restore id data ∉ ops)
    (hspared : l.Spared ops) : (l.after ops).Kept (s.applyAll (l.changesOf ops)) := by
  induction ops generalizing l s with
  | nil => exact h
  | cons op ops ih =>
    have hstep := h.step (fun id data heq => hops id data (heq ▸ List.mem_cons_self)) hspared.1
    rw [changesOf, Sink.applyAll_append]
    exact ih hstep (fun id data hmem => hops id data (List.mem_cons_of_mem _ hmem)) hspared.2

/-- A new client at work over any transport: after any operations that take in no record, the sink
has the records of the exchanges in flight, in the order of their start. This asks for nothing but
that no frame is refused which changes of the records stand behind. -/
theorem in_step_while_spared (options : ClientOptions) (transport : Transport) {ops : List Op}
    (hops : ∀ id data, .restore id data ∉ ops)
    (hspared : Spared { client := .new options, transport } ops) :
    Sink.empty.applyAll (changesOf { client := .new options, transport } ops) =
      ⟨(after { client := .new options, transport } ops).client.session.ledger.toList.map
        fun e => (e.key, Record.encode e)⟩ :=
  (Kept.after ⟨rfl, Client.wf_new options, rfl⟩ hops hspared).records

/-- A transport that accepts a connection and takes no more than CONNECT and one other write. -/
def twoWrites : Transport := { script := [.data [0x20, 3, 0, 0, 0]], writesLeft := some 2 }

/-- A message is published on such a transport. -/
def publishes : List Op :=
  [.connect { clientId := "c" }, .request (.publish (.ofMessage "t" [0x78] .atLeastOnce false))]

/-- A second message cannot be written. It is abandoned, and the record of the first one is left. -/
theorem in_step_while_spared_abandoned :
    let l : Link := { client := .new {}, transport := twoWrites }
    let again : Op := .request (.publish (.ofMessage "t" [0x78] .atLeastOnce false))
    ((l.after publishes).step again).traffic =
        [.refusedWrite [0x32, 7, 0, 1, 0x74, 0, 2, 0, 0x78], .close] ∧
      Sink.empty.applyAll (l.changesOf (publishes ++ [again])) =
        ⟨[(.outbound 1, [1, 0, 4, 1, 5, 0, 1, 0x32, 7, 0, 1, 0x74, 0, 1, 0, 0x78])]⟩ := by
  intro l again
  have htraffic : (l.step (.connect { clientId := "c" })).traffic =
      [.connect, .write [16, 14, 0, 4, 77, 81, 84, 84, 5, 2, 0, 60, 0, 0, 1, 99]] := by cbv
  have hspared : l.Spared (publishes ++ [again]) := by
    refine ⟨fun frame hmem => ?_, fun frame _ => not_exposes_request,
      fun frame _ => not_exposes_request, trivial⟩
    rw [htraffic] at hmem
    simp at hmem
  have hops : ∀ id data, .restore id data ∉ publishes ++ [again] := by simp [publishes, again]
  refine ⟨by cbv, (in_step_while_spared {} twoWrites hops hspared).trans ?_⟩
  cbv

/-- DISCONNECT cannot be written. The session is forgotten all the same, and the record of the
message stays in the sink. -/
theorem out_of_step_after_disconnect :
    let l : Link := { client := .new {}, transport := twoWrites }
    let ops : List Op := publishes ++ [.disconnect]
    Sink.empty.applyAll (l.changesOf ops) =
        ⟨[(.outbound 1, [1, 0, 4, 1, 5, 0, 1, 0x32, 7, 0, 1, 0x74, 0, 1, 0, 0x78])]⟩ ∧
      (l.after ops).client.session.ledger.toList = [] ∧
      Sink.empty.applyAll (l.changesOf ops) ≠
        ⟨(l.after ops).client.session.ledger.toList.map fun e => (e.key, Record.encode e)⟩ := by
  intro l ops
  have hsink : Sink.empty.applyAll (l.changesOf ops) =
      ⟨[(.outbound 1, [1, 0, 4, 1, 5, 0, 1, 0x32, 7, 0, 1, 0x74, 0, 1, 0, 0x78])]⟩ := by cbv
  have hnone : (l.after ops).client.session.ledger.toList = [] := by cbv
  refine ⟨hsink, hnone, ?_⟩
  rw [hsink, hnone]
  simp

end Link

end Mqtt
