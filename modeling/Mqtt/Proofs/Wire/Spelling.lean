import Mathlib.Algebra.Group.Nat.Defs
import Mqtt.Proofs.Wire.Scan

/-!
# Spellings of numbers

A number is spelled in groups of seven bits, low group first, and every octet but the last has its
high bit set: `VarInt.Spells`. The reader accepts every spelling of four octets or less
(`VarInt.spells_of_scan`), and the writer knows one for each number. The others are those that are
padded, with a last octet that adds nothing: `VarInt.Spells.digits_eq_iff`.
-/

namespace Mqtt

namespace VarInt

/-- The octets are the number in groups of seven bits, at most `n` of them and perhaps more than it
needs. -/
inductive Spells : Nat → Bytes → Nat → Prop
  | last {n : Nat} {x : UInt8} (hx : x < 128) : Spells (n + 1) [x] x.toNat
  | more {n : Nat} {x : UInt8} {b : Bytes} {v : Nat} (hx : ¬x < 128) (hb : Spells n b v) :
      Spells (n + 1) (x :: b) (x.toNat % 128 + 128 * v)

/-- The last of several octets adds nothing to the number. -/
def Padded (b : Bytes) : Prop := 1 < b.length ∧ b.getLast? = some 0

instance : DecidablePred Padded := fun _ => inferInstanceAs (Decidable (_ ∧ _))

variable {n v : Nat} {b : Bytes}

namespace Spells

theorem length_pos (h : Spells n b v) : 0 < b.length := by
  cases h <;> exact Nat.succ_pos _

theorem length_le (h : Spells n b v) : b.length ≤ n := by
  induction h with
  | last => exact Nat.le_add_left 1 _
  | more _ _ ih => exact Nat.succ_le_succ ih

theorem lt (h : Spells n b v) : v < 128 ^ b.length := by
  induction h with
  | last hx => simpa using UInt8.lt_iff_toNat_lt.1 hx
  | more _ _ ih =>
    rw [List.length_cons, Nat.pow_succ]
    omega

/-- A number needs no more octets than it was spelled in. -/
theorem size_le (h : Spells 4 b v) : size v ≤ b.length := by
  have hv := h.lt
  have hpos := h.length_pos
  have hle := h.length_le
  have hcases : b.length = 1 ∨ b.length = 2 ∨ b.length = 3 ∨ b.length = 4 := by omega
  unfold size
  rcases hcases with hn | hn | hn | hn <;> rw [hn] at hv ⊢ <;> split_ifs <;> omega

theorem le_max (h : Spells 4 b v) : v ≤ max := by
  have hv := Nat.lt_of_lt_of_le h.lt (Nat.pow_le_pow_right (by decide) h.length_le)
  rw [max]
  omega

/-! ## The shortest spelling -/

/-- A number is zero only if its last group is. -/
theorem getLast?_of_zero (h : Spells n b 0) : b.getLast? = some 0 := by
  generalize hv : 0 = v at h
  induction h with
  | @last _ x =>
    obtain rfl : x = 0 := UInt8.toNat_inj.1 hv.symm
    rfl
  | more _ _ ih =>
    rw [List.getLast?_cons, ih (by omega)]
    rfl

/-- Behind other octets, zero adds nothing. -/
theorem padded_cons_iff (h : Spells n b v) (x : UInt8) : Padded (x :: b) ↔ v = 0 ∨ Padded b := by
  have hlast : (x :: b).getLast? = b.getLast? := by
    obtain ⟨y, b', rfl⟩ := List.exists_cons_of_length_pos h.length_pos
    rw [List.getLast?_cons_cons]
  have hpos := h.length_pos
  have hmany : 1 < (x :: b).length := by
    rw [List.length_cons]
    omega
  rw [Padded, Padded, hlast, and_iff_right hmany]
  constructor
  · intro hzero
    by_cases hb : 1 < b.length
    · exact .inr ⟨hb, hzero⟩
    -- a single octet, which is the number
    · cases h with
      | last => exact .inl (by cases hzero; rfl)
      | more _ h =>
        have := h.length_pos
        rw [List.length_cons] at hb
        omega
  · rintro (rfl | hb)
    · exact h.getLast?_of_zero
    · exact hb.2

/-- A number is written as it was spelled unless the spelling is padded. -/
theorem digits_eq_iff (h : Spells (n + 1) b v) : digits n v = b ↔ ¬Padded b := by
  induction n generalizing b v with
  | zero =>
    cases h with
    | last => simp [digits, Padded]
    | more _ h => cases h
  | succ n ih =>
    cases h with
    | @last _ x hx =>
      have hx' : x.toNat < 128 := UInt8.lt_iff_toNat_lt.1 hx
      rw [digits, if_pos hx', UInt8.ofNat_toNat]
      simp [Padded]
    | @more _ x b v hx h =>
      have hx' : 128 ≤ x.toNat := Nat.le_of_not_lt fun hlt => hx (UInt8.lt_iff_toNat_lt.2 hlt)
      have hlt := x.toNat_lt
      rw [h.padded_cons_iff, not_or, ← ih h, digits]
      by_cases hv : v = 0
      · -- one octet is written where two or more were read
        have hne : b ≠ [] := List.length_pos_iff.1 h.length_pos
        rw [if_pos (by omega)]
        simp [hv, Ne.symm hne]
      · have hfirst : UInt8.ofNat ((x.toNat % 128 + 128 * v) % 128 + 128) = x := by
          apply UInt8.toNat_inj.1
          rw [UInt8.toNat_ofNat']
          omega
        have hrest : (x.toNat % 128 + 128 * v) / 128 = v := by omega
        rw [if_neg (by omega), hfirst, hrest, List.cons_inj_right]
        exact (and_iff_right hv).symm

end Spells

/-! ## Reading -/

theorem spells_of_scan {k : Nat} (h : scan n b = some (v, k)) : Spells n (b.take k) v := by
  induction n generalizing b v k with
  | zero => cases h
  | succ n ih =>
    cases b with
    | nil => cases h
    | cons x b =>
      rw [scan] at h
      split at h
      · rename_i hx
        cases h
        exact .last hx
      · rename_i hx
        obtain ⟨⟨v', k'⟩, hscan, hr⟩ := Option.map_eq_some_iff.1 h
        cases hr
        exact .more hx (ih hscan)

theorem scan_le_max {k : Nat} (h : scan 4 b = some (v, k)) : v ≤ max :=
  (spells_of_scan h).le_max

end VarInt

end Mqtt
