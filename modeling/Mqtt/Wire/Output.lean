import Mqtt.Error

/-!
# Writing

A writer yields the octets it wrote and, when it had to stop, the error that stopped it. Writing
one thing after another stops at the first error and keeps what was written before it, so outputs
form a monoid: `append_assoc`, `empty_append`, `append_empty`.

`toExcept_append` says when a sequence of two succeeds and what it writes.
-/

namespace Mqtt

/-- What a writer wrote, and why it stopped if it had to. -/
structure Output where
  bytes : Bytes
  error : Option Error
  deriving DecidableEq

namespace Output

/-- Write octets. -/
def put (b : Bytes) : Output := ⟨b, none⟩

/-- Write nothing. -/
def empty : Output := put []

/-- Stop with an error. -/
def fail (e : Error) : Output := ⟨[], some e⟩

/-- Write the one, then the other unless the first had to stop. -/
def append (a b : Output) : Output :=
  match a.error with
  | some _ => a
  | none => ⟨a.bytes ++ b.bytes, b.error⟩

instance : Append Output := ⟨append⟩

/-- Write one thing after another. -/
def concat (parts : List Output) : Output := parts.foldr (· ++ ·) empty

/-- The octets of a writer that did not stop. -/
def toExcept (o : Output) : Except Error Bytes :=
  match o.error with
  | some e => .error e
  | none => .ok o.bytes

theorem append_def (a b : Output) : a ++ b = append a b := rfl

@[simp] theorem put_append_put (a b : Bytes) : put a ++ put b = put (a ++ b) := rfl

@[simp] theorem fail_append (e : Error) (o : Output) : fail e ++ o = fail e := rfl

@[simp] theorem empty_append (o : Output) : empty ++ o = o := rfl

@[simp] theorem append_empty (o : Output) : o ++ empty = o := by
  obtain ⟨b, e⟩ := o
  cases e <;> simp [append_def, append, empty, put]

theorem append_assoc (a b c : Output) : a ++ b ++ c = a ++ (b ++ c) := by
  obtain ⟨x, e⟩ := a
  obtain ⟨y, f⟩ := b
  cases e <;> cases f <;> simp [append_def, append]

@[simp] theorem concat_nil : concat [] = empty := rfl

@[simp] theorem concat_cons (o : Output) (os : List Output) : concat (o :: os) = o ++ concat os :=
  rfl

@[simp] theorem toExcept_put (b : Bytes) : (put b).toExcept = .ok b := rfl

@[simp] theorem toExcept_fail (e : Error) : (fail e).toExcept = .error e := rfl

theorem toExcept_append (a b : Output) :
    (a ++ b).toExcept = do return (← a.toExcept) ++ (← b.toExcept) := by
  obtain ⟨x, e⟩ := a
  obtain ⟨y, f⟩ := b
  cases e <;> cases f <;> rfl

end Output

end Mqtt
