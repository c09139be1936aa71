import Mathlib
import Mqtt.Proofs.Client.Edits

/-!
# Refused operations

An operation that is refused has no actions and leaves the client as it was, the pool of identifiers
included. Some requests claim an identifier before their packet can be written; the pool depends
only on which identifiers are held, so giving the identifier back restores it exactly
(`IdPool.Hands.release`).

So the operations of a history that were refused can be left out of it: `refused_leaves_no_trace`.
-/

namespace Mqtt

namespace Client

/-- The operations that are not refused when their turn comes. -/
def accepted (c : Client) : List Op → List Op
  | [] => []
  | op :: ops =>
    if (c.step op).result.isOk then op :: (c.step op).client.accepted ops
    else (c.step op).client.accepted ops

variable {c : Client}

theorem step_of_refused (hc : c.WF) {op : Op} {e : Error} (h : (c.step op).result = .error e) :
    c.step op = ⟨.error e, [], c⟩ := by
  rcases step_cases hc op with ⟨e', hstep⟩ | ⟨a, acts, c', hstep, -⟩
  · rw [hstep] at h ⊢
    cases h
    rfl
  · rw [hstep] at h
    cases h

/-- What is not a success is a refusal. -/
theorem step_of_not_isOk (hc : c.WF) {op : Op} (h : ¬(c.step op).result.isOk) :
    ∃ e, c.step op = ⟨.error e, [], c⟩ := by
  cases hresult : (c.step op).result with
  | ok a => exact absurd (by rw [hresult]; rfl) h
  | error e => exact ⟨e, step_of_refused hc hresult⟩

/-- Without the operations that it refuses, a client ends up the same and does the same. -/
theorem run_accepted (hc : c.WF) (ops : List Op) :
    c.after (c.accepted ops) = c.after ops ∧ c.actionsOf (c.accepted ops) = c.actionsOf ops := by
  induction ops generalizing c with
  | nil => exact ⟨rfl, rfl⟩
  | cons op ops ih =>
    by_cases hok : (c.step op).result.isOk
    · obtain ⟨hafter, hactions⟩ := ih (wf_step hc op)
      rw [accepted, if_pos hok]
      exact ⟨hafter, congrArg ((c.step op).actions ++ ·) hactions⟩
    · obtain ⟨e, hstep⟩ := step_of_not_isOk hc hok
      have hclient : (c.step op).client = c := congrArg Outcome.client hstep
      have hactions : (c.step op).actions = [] := congrArg Outcome.actions hstep
      rw [accepted, if_neg hok, hclient]
      change _ = (c.step op).client.after ops ∧
        _ = (c.step op).actions ++ (c.step op).client.actionsOf ops
      rw [hclient, hactions]
      exact ih hc

/-- An operation that any client refuses leaves all of it as it was, and has no actions. So a
history and the same history without what was refused end in the same client, with the same
actions on the way. -/
theorem refused_leaves_no_trace (options : ClientOptions) (ops : List Op) :
    let c := (new options).after ops
    (∀ (op : Op) (e : Error), (c.step op).result = .error e → c.step op = ⟨.error e, [], c⟩) ∧
    (new options).after ((new options).accepted ops) = c ∧
    (new options).actionsOf ((new options).accepted ops) = (new options).actionsOf ops := by
  intro c
  have hc : c.WF := wf_after (wf_new options) ops
  obtain ⟨hafter, hactions⟩ := run_accepted (wf_new options) ops
  exact ⟨fun op e h => step_of_refused hc h, hafter, hactions⟩

/-- A message whose subscription identifier is too large to be written. -/
def unwritable : Publish :=
  { Publish.ofMessage "t" [1] .atLeastOnce false with
    properties := ⟨[(.subscriptionIdentifier, .varInt 268435456)]⟩ }

/-- A message waits for its PUBACK under identifier 1. -/
def waits : List Op :=
  [.connect {} 0, .receive (.connAck ⟨false, .success, .empty, .v5⟩),
    .request (.publish (.ofMessage "t" [1] .atLeastOnce false))]

/-- An identifier far above those held is claimed for a message that cannot be written. That fills
the gaps below it, and all of this is undone. -/
theorem refused_leaves_no_trace_above :
    (((new {}).after waits).step (.request (.publishWithId 5 unwritable))).result =
        .error (.malformed (.varIntTooLarge 268435456)) ∧
      ((new {}).after waits).step (.request (.publishWithId 5 unwritable)) =
        ⟨.error (.malformed (.varIntTooLarge 268435456)), [], (new {}).after waits⟩ ∧
      (new {}).accepted (waits ++ [.request (.publishWithId 5 unwritable)]) = waits := by
  have h : (((new {}).after waits).step (.request (.publishWithId 5 unwritable))).result =
      .error (.malformed (.varIntTooLarge 268435456)) := by cbv
  exact ⟨h, (refused_leaves_no_trace {} waits).1 _ _ h, by cbv⟩

end Client

end Mqtt
