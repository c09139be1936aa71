import Mathlib.Algebra.Group.Nat.Defs
import Mqtt.Proofs.Success
import Mqtt.Wire.Field

/-!
# What was read

A number is found again at the front of the octets that it was written to, whatever stands behind
them: `VarInt.peek?_digits`. A decoder that succeeds has taken its octets off the front of the
buffer: `Decoder.bytes_of_u16` for a word and `Field.behind_of_text` for a text.
-/

namespace Mqtt

/-! ## Numbers -/

namespace VarInt

theorem toNat_digit {n : Nat} (h : n < 256) : (UInt8.ofNat n).toNat = n := by
  rw [UInt8.toNat_ofNat']
  omega

/-- An octet ends a number if its high bit is clear. -/
theorem digit_lt_iff {n : Nat} (h : n < 256) : UInt8.ofNat n < 128 ↔ n < 128 := by
  rw [UInt8.lt_iff_toNat_lt, toNat_digit h]
  rfl

theorem scan_digits {n v : Nat} (h : v < 128 ^ (n + 1)) (rest : Bytes) :
    scan (n + 1) (digits n v ++ rest) = some (v, (digits n v).length) := by
  induction n generalizing v with
  | zero =>
    have hv : v < 128 := by simpa using h
    have hv' : v < 256 := by omega
    simp [digits, scan, digit_lt_iff hv', toNat_digit hv', hv]
  | succ n ih =>
    rw [digits]
    by_cases hv : v < 128
    · have hv' : v < 256 := by omega
      simp [scan, digit_lt_iff hv', toNat_digit hv', hv]
    · have hlow : v % 128 + 128 < 256 := by omega
      have hgroup : ¬UInt8.ofNat (v % 128 + 128) < 128 := by
        rw [digit_lt_iff hlow]
        omega
      have hdiv : v / 128 < 128 ^ (n + 1) := by
        rw [Nat.div_lt_iff_lt_mul (by decide), ← Nat.pow_succ]
        exact h
      rw [if_neg hv, List.cons_append, scan, if_neg hgroup, ih hdiv, Option.map_some,
        toNat_digit hlow]
      simp only [Option.some.injEq, Prod.mk.injEq, List.length_cons, and_true]
      omega

/-- A number that can be written is found again, and the octets behind it are left alone. -/
theorem peek?_digits {v : Nat} (h : v ≤ max) (rest : Bytes) :
    peek? (digits 3 v ++ rest) = .ok (some (v, (digits 3 v).length)) := by
  have hv : v < 128 ^ 4 := by
    rw [max] at h
    omega
  rw [peek?, scan_digits hv]

end VarInt

/-! ## Decoders that succeed -/

namespace Decoder

variable {α β : Type} {s s' : Segments}

theorem bind_eq_ok_iff {x : Decoder α} {f : α → Decoder β} {b : β} :
    (x >>= f).run s = .ok (b, s') ↔
      ∃ a s₁, x.run s = .ok (a, s₁) ∧ (f a).run s₁ = .ok (b, s') := by
  rw [StateT.run_bind, Except.bind_eq_ok_iff, Prod.exists]

theorem pure_eq_ok_iff {a b : α} : (pure a : Decoder α).run s = .ok (b, s') ↔ a = b ∧ s = s' := by
  rw [StateT.run_pure, Except.pure_eq_ok_iff, Prod.mk.injEq]

theorem map_eq_ok_iff {f : α → β} {x : Decoder α} {b : β} :
    (f <$> x).run s = .ok (b, s') ↔ ∃ a, f a = b ∧ x.run s = .ok (a, s') := by
  rw [← bind_pure_comp, bind_eq_ok_iff]
  simp only [pure_eq_ok_iff]
  constructor
  · rintro ⟨a, s₁, hx, hb, rfl⟩
    exact ⟨a, hb, hx⟩
  · rintro ⟨a, hb, hx⟩
    exact ⟨a, s', hx, hb, rfl⟩

/-- Looking ahead takes nothing. -/
theorem has_eq_ok_iff {n : Nat} {b : Bool} :
    (has n).run s = .ok (b, s') ↔ s.hasAtLeast n = b ∧ s = s' :=
  pure_eq_ok_iff

/-- What is required is met, and nothing is taken. -/
theorem require_eq_ok_iff {c : Bool} {e : Error} {u : Unit} :
    (require c e).run s = .ok (u, s') ↔ c ∧ s = s' := by
  cases c with
  | true => exact pure_eq_ok_iff.trans (by simp)
  | false =>
    constructor
    · intro h
      cases h
    · intro h
      cases h.1

theorem refuse_ne_ok {e : Error} {a : α} : (refuse e : Decoder α).run s ≠ .ok (a, s') := by
  intro h
  cases h

theorem bytes_of_u8 {b : UInt8} (h : u8.run s = .ok (b, s')) : s.bytes = b :: s'.bytes := by
  rcases hnext : s.next? with _ | r
  · simp [u8, StateT.run, hnext] at h
  · simp only [u8, StateT.run, hnext, Except.ok.injEq] at h
    subst h
    exact Segments.bytes_of_next? hnext

theorem bytes_of_take {n : Nat} {b : Bytes} (h : (take n).run s = .ok (b, s')) :
    s.bytes = b ++ s'.bytes ∧ b.length = n := by
  rcases htake : s.take? n with _ | r
  · simp [take, StateT.run, htake] at h
  · simp only [take, StateT.run, htake, Except.ok.injEq] at h
    subst h
    exact Segments.bytes_of_take? htake

/-! ## Words -/

/-- The first word of octets. -/
def firstWord : Bytes → Option UInt16
  | hi :: lo :: _ => some (Bytes.word hi lo)
  | _ => none

theorem firstWord_ofWord (w : UInt16) (rest : Bytes) :
    firstWord (Bytes.ofWord w ++ rest) = some w :=
  congrArg some (Bytes.word_ofWord w)

theorem bytes_of_u16 {w : UInt16} (h : u16.run s = .ok (w, s')) :
    ∃ hi lo, s.bytes = hi :: lo :: s'.bytes ∧ Bytes.word hi lo = w := by
  simp only [u16, bind_eq_ok_iff, pure_eq_ok_iff] at h
  obtain ⟨hi, s₁, hhi, lo, s₂, hlo, hw, rfl⟩ := h
  exact ⟨hi, lo, by rw [bytes_of_u8 hhi, bytes_of_u8 hlo], hw⟩

theorem firstWord_of_u16 {w : UInt16} (h : u16.run s = .ok (w, s')) :
    firstWord s.bytes = some w := by
  obtain ⟨hi, lo, hs, hw⟩ := bytes_of_u16 h
  rw [hs, firstWord, hw]

end Decoder

/-! ## Fields -/

namespace Field

variable {s s' : Segments}

/-- The octets behind a field at the front. -/
def behind (b : Bytes) : Option Bytes := (Decoder.firstWord b).map fun n => b.drop (2 + n.toNat)

theorem behind_prefixed {b : Bytes} (h : b.length ≤ maxLength) (rest : Bytes) :
    behind (prefixed b ++ rest) = some rest := by
  have hlen : (UInt16.ofNat b.length).toNat = b.length :=
    UInt16.toNat_ofNat_of_lt' (Nat.lt_succ_of_le h)
  have hsize : 2 + b.length = (prefixed b).length := by
    rw [prefixed, List.length_append, Bytes.length_ofWord]
  rw [behind, prefixed, List.append_assoc, Decoder.firstWord_ofWord, Option.map_some, hlen,
    ← List.append_assoc, ← prefixed, hsize, List.drop_left]

theorem behind_of_binary {b : Bytes} (h : binary.run s = .ok (b, s')) :
    behind s.bytes = some s'.bytes := by
  simp only [binary, Decoder.bind_eq_ok_iff, Decoder.has_eq_ok_iff, Decoder.require_eq_ok_iff] at h
  obtain ⟨_, _, ⟨-, rfl⟩, _, _, ⟨-, rfl⟩, n, s₁, hn, enough, _, ⟨-, rfl⟩, h⟩ := h
  obtain ⟨hi, lo, hs, -⟩ := Decoder.bytes_of_u16 hn
  cases enough with
  | false =>
    simp only [Bool.false_eq_true, ↓reduceIte, Decoder.bind_eq_ok_iff] at h
    obtain ⟨_, _, -, _, _, hrefuse, -⟩ := h
    exact absurd hrefuse Decoder.refuse_ne_ok
  | true =>
    obtain ⟨hbytes, hlen⟩ := Decoder.bytes_of_take h
    rw [behind, Decoder.firstWord_of_u16 hn, Option.map_some, hs, hbytes, ← hlen, Nat.add_comm,
      List.drop_succ_cons, List.drop_succ_cons, List.drop_left]

theorem behind_of_text {t : String} (h : text.run s = .ok (t, s')) :
    behind s.bytes = some s'.bytes := by
  obtain ⟨b, s₁, hb, h⟩ := Decoder.bind_eq_ok_iff.1 h
  rw [behind_of_binary hb]
  split at h
  · rw [(Decoder.pure_eq_ok_iff.1 h).2]
  · exact absurd h Decoder.refuse_ne_ok

end Field

end Mqtt
