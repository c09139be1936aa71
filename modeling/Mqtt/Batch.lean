import Mqtt.Error

/-!
# Repeating an operation

Running an operation a number of times, up to the first error.
-/

namespace Mqtt

/-- The outcome of repeating an operation. -/
structure Batch (α : Type) where
  /-- The last result. -/
  last : Option α := none
  /-- The number of results. -/
  count : Nat := 0
  /-- The error that ended the repetition. -/
  failed : Option Error := none

namespace Batch

/-- Go on with a batch: run an operation up to `n` more times, until it fails. -/
def more {α σ : Type} (op : σ → Except Error α × σ) : Nat → Batch α → σ → Batch α × σ
  | 0, b, s => (b, s)
  | n + 1, b, s =>
    match op s with
    | (.error e, s) => ({ b with failed := some e }, s)
    | (.ok a, s) => more op n { b with last := some a, count := b.count + 1 } s

/-- Run an operation `n` times, until it fails. -/
def run {α σ : Type} (op : σ → Except Error α × σ) (n : Nat) (s : σ) : Batch α × σ :=
  more op n {} s

end Batch

end Mqtt
