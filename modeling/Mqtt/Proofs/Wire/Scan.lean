import Mathlib.Tactic.Common
import Mqtt.Wire.VarInt

/-!
# Numbers at the front of input that may go on

A number that was found depends only on its own octets: `VarInt.peek?_take_append`. Once the front
of the input has been read as a number, or refused, what arrives behind it changes nothing:
`VarInt.peek?_append`.
-/

namespace Mqtt

namespace VarInt

/-- A number takes an octet at least, and no more than there are or may be. -/
theorem scan_bounds {n v k : Nat} {b : Bytes} (h : scan n b = some (v, k)) :
    0 < k ∧ k ≤ n ∧ k ≤ b.length := by
  induction n generalizing b v k with
  | zero => cases h
  | succ n ih =>
    cases b with
    | nil => cases h
    | cons x b =>
      rw [scan] at h
      split at h
      · cases h
        simp
      · obtain ⟨⟨v', k'⟩, hscan, hr⟩ := Option.map_eq_some_iff.1 h
        cases hr
        have hk := ih hscan
        rw [List.length_cons]
        omega

theorem scan_take_append {n v k : Nat} {b : Bytes} (h : scan n b = some (v, k)) (c : Bytes) :
    scan n (b.take k ++ c) = some (v, k) := by
  induction n generalizing b v k with
  | zero => cases h
  | succ n ih =>
    cases b with
    | nil => cases h
    | cons x b =>
      rw [scan] at h
      split at h
      · rename_i hx
        cases h
        rw [List.take_succ_cons, List.cons_append, scan, if_pos hx]
      · rename_i hx
        obtain ⟨⟨v', k'⟩, hscan, hr⟩ := Option.map_eq_some_iff.1 h
        cases hr
        rw [List.take_succ_cons, List.cons_append, scan, if_neg hx, ih hscan]
        rfl

theorem scan_append {n v k : Nat} {b : Bytes} (h : scan n b = some (v, k)) (c : Bytes) :
    scan n (b ++ c) = some (v, k) := by
  have happend := scan_take_append h (b.drop k ++ c)
  rwa [← List.append_assoc, List.take_append_drop] at happend

/-- Octets that are not looked at change nothing. -/
theorem scan_append_of_le {n : Nat} {b : Bytes} (h : n ≤ b.length) (c : Bytes) :
    scan n (b ++ c) = scan n b := by
  induction n generalizing b with
  | zero => rfl
  | succ n ih =>
    cases b with
    | nil => simp at h
    | cons x b => rw [List.cons_append, scan, scan, ih (Nat.le_of_succ_le_succ h)]

theorem peek?_eq_some_iff {b : Bytes} {r : Nat × Nat} :
    peek? b = .ok (some r) ↔ scan 4 b = some r := by
  rw [peek?]
  split
  · simp_all
  · split <;> simp_all

theorem peek?_eq_error_iff {b : Bytes} {e : Error} : peek? b = .error e ↔
    e = .malformed .varIntTooLong ∧ scan 4 b = none ∧ 4 ≤ b.length := by
  rw [peek?]
  split
  · simp_all
  · split <;> simp_all [eq_comm]

theorem peek?_eq_none_iff {b : Bytes} : peek? b = .ok none ↔ scan 4 b = none ∧ b.length < 4 := by
  rw [peek?]
  split
  · simp_all
  · split <;> simp_all

theorem peek?_take_append {b : Bytes} {v k : Nat} (h : peek? b = .ok (some (v, k))) (c : Bytes) :
    peek? (b.take k ++ c) = .ok (some (v, k)) :=
  peek?_eq_some_iff.2 (scan_take_append (peek?_eq_some_iff.1 h) c)

theorem peek?_append {b : Bytes} (h : peek? b ≠ .ok none) (c : Bytes) :
    peek? (b ++ c) = peek? b := by
  rcases hscan : scan 4 b with _ | ⟨v, k⟩
  · have hlen : 4 ≤ b.length := by
      by_contra hlen
      exact h (by rw [peek?, hscan]; exact if_neg hlen)
    have hlen' : 4 ≤ (b ++ c).length := by
      rw [List.length_append]
      omega
    simp only [peek?, scan_append_of_le hlen, hscan, if_pos hlen, if_pos hlen']
  · have hpeek := peek?_eq_some_iff.2 hscan
    rw [hpeek, ← peek?_take_append hpeek (b.drop k ++ c), ← List.append_assoc,
      List.take_append_drop]

end VarInt

end Mqtt
