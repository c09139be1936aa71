import Mqtt.Wire.Bytes

/-!
# Input in pieces

A receive buffer need not be contiguous: it is a list of pieces, read from the front. Empty pieces
hold nothing and are passed over. `Segments.bytes` forgets the cuts; every operation is described
through it.

* `next?_eq_none_iff`, `bytes_of_next?`: reading one octet;
* `bytes_of_take?`: reading several, and `take?_eq_none_iff` when there are too few;
* `hasAtLeast_iff`: looking ahead without counting the whole buffer.
-/

namespace Mqtt

/-- A read buffer as the pieces it consists of. -/
structure Segments where
  pieces : List Bytes
  deriving DecidableEq

namespace Segments

/-- A buffer of one piece. -/
def ofBytes (b : Bytes) : Segments := ⟨[b]⟩

/-- The octets of the buffer, whatever the cuts. -/
def bytes (s : Segments) : Bytes := s.pieces.flatten

/-- The number of octets left. -/
def remaining (s : Segments) : Nat := go s.pieces
where
  /-- The number of octets in the pieces. -/
  go : List Bytes → Nat
    | [] => 0
    | p :: ps => p.length + go ps

@[simp] theorem bytes_ofBytes (b : Bytes) : (ofBytes b).bytes = b := by
  simp [ofBytes, bytes]

theorem remaining_eq_length_bytes (s : Segments) : s.remaining = s.bytes.length := by
  obtain ⟨ps⟩ := s
  show remaining.go ps = ps.flatten.length
  induction ps with
  | nil => rfl
  | cons p ps ih => rw [remaining.go, ih, List.flatten_cons, List.length_append]

/-- The first piece that is not empty. -/
def front (s : Segments) : Bytes := go s.pieces
where
  /-- The search through the pieces. -/
  go : List Bytes → Bytes
    | [] => []
    | [] :: ps => go ps
    | p :: _ => p

/-- The first octet and the buffer behind it. -/
def next? (s : Segments) : Option (UInt8 × Segments) := go s.pieces
where
  /-- The search through the pieces. -/
  go : List Bytes → Option (UInt8 × Segments)
    | [] => none
    | [] :: ps => go ps
    | (b :: p) :: ps => some (b, ⟨p :: ps⟩)

theorem next?_eq_none_iff (s : Segments) : s.next? = none ↔ s.bytes = [] := by
  obtain ⟨ps⟩ := s
  show next?.go ps = none ↔ ps.flatten = []
  induction ps with
  | nil => simp [next?.go]
  | cons p ps ih => cases p <;> simp [next?.go, ih]

theorem bytes_of_next? {s s' : Segments} {b : UInt8} (h : s.next? = some (b, s')) :
    s.bytes = b :: s'.bytes := by
  obtain ⟨ps⟩ := s
  replace h : next?.go ps = some (b, s') := h
  show ps.flatten = _
  induction ps with
  | nil => simp [next?.go] at h
  | cons p ps ih =>
    cases p with
    | nil => simpa using ih h
    | cons c p =>
      simp only [next?.go, Option.some.injEq, Prod.mk.injEq] at h
      obtain ⟨rfl, rfl⟩ := h
      simp [bytes]

/-- Whether `n` octets are left. -/
def hasAtLeast (s : Segments) (n : Nat) : Bool := go n s.pieces
where
  /-- The search through the pieces for `n` more octets. -/
  go : Nat → List Bytes → Bool
    | 0, _ => true
    | _ + 1, [] => false
    | n + 1, p :: ps =>
      let k := (p.take (n + 1)).length
      go (n + 1 - k) ps

theorem hasAtLeast_iff (s : Segments) (n : Nat) : s.hasAtLeast n = true ↔ n ≤ s.remaining := by
  obtain ⟨ps⟩ := s
  show hasAtLeast.go n ps = true ↔ n ≤ remaining.go ps
  induction ps generalizing n with
  | nil => cases n <;> simp [hasAtLeast.go, remaining.go]
  | cons p ps ih =>
    cases n with
    | zero => simp [hasAtLeast.go]
    | succ n =>
      rw [hasAtLeast.go, ih, remaining.go, List.length_take]
      omega

/-- The first `n` octets and the buffer behind them, if there are that many. -/
def take? (n : Nat) (s : Segments) : Option (Bytes × Segments) := go n s.pieces
where
  /-- Taking `n` more octets from the pieces. -/
  go : Nat → List Bytes → Option (Bytes × Segments)
    | 0, ps => some ([], ⟨ps⟩)
    | _ + 1, [] => none
    | n + 1, p :: ps =>
      let first := p.take (n + 1)
      if first.length = n + 1 then some (first, ⟨p.drop (n + 1) :: ps⟩)
      else (go (n + 1 - first.length) ps).map fun r => (first ++ r.1, r.2)

theorem bytes_of_take? {n : Nat} {s s' : Segments} {b : Bytes} (h : s.take? n = some (b, s')) :
    s.bytes = b ++ s'.bytes ∧ b.length = n := by
  obtain ⟨ps⟩ := s
  replace h : take?.go n ps = some (b, s') := h
  show ps.flatten = _ ∧ _
  induction ps generalizing n b with
  | nil =>
    cases n with
    | zero =>
      simp only [take?.go, Option.some.injEq, Prod.mk.injEq] at h
      obtain ⟨rfl, rfl⟩ := h
      simp [bytes]
    | succ n => simp [take?.go] at h
  | cons p ps ih =>
    cases n with
    | zero =>
      simp only [take?.go, Option.some.injEq, Prod.mk.injEq] at h
      obtain ⟨rfl, rfl⟩ := h
      simp [bytes]
    | succ n =>
      simp only [take?.go] at h
      split at h
      · rename_i hl
        simp only [Option.some.injEq, Prod.mk.injEq] at h
        obtain ⟨rfl, rfl⟩ := h
        refine ⟨?_, hl⟩
        simp [bytes, ← List.append_assoc, List.take_append_drop]
      · rename_i hl
        obtain ⟨⟨r, t⟩, hr, he⟩ := Option.map_eq_some_iff.1 h
        simp only [Prod.mk.injEq] at he
        obtain ⟨rfl, rfl⟩ := he
        obtain ⟨h₁, h₂⟩ := ih hr
        rw [List.length_take] at hl h₂
        have hp : p.take (n + 1) = p := List.take_of_length_le (by omega)
        refine ⟨?_, ?_⟩
        · rw [List.flatten_cons, h₁, hp, List.append_assoc]
        · rw [List.length_append, hp]
          omega

theorem take?_eq_none_iff (n : Nat) (s : Segments) : s.take? n = none ↔ s.remaining < n := by
  obtain ⟨ps⟩ := s
  show take?.go n ps = none ↔ remaining.go ps < n
  induction ps generalizing n with
  | nil => cases n <;> simp [take?.go, remaining.go]
  | cons p ps ih =>
    cases n with
    | zero => simp [take?.go]
    | succ n =>
      simp only [take?.go, remaining.go]
      split
      · rename_i hl
        rw [List.length_take] at hl
        simp only [reduceCtorEq, false_iff, Nat.not_lt]
        omega
      · rename_i hl
        rw [Option.map_eq_none_iff, ih]
        rw [List.length_take] at hl ⊢
        omega

end Segments

end Mqtt
