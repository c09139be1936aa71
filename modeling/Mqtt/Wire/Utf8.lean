import Mqtt.Wire.Bytes

/-!
# Text as UTF-8

Text travels as UTF-8. `Utf8.decode?` accepts exactly the well-formed octet sequences
(`decode?_encode` and `eq_encode_of_decode?`); when it refuses, `Utf8.defect` says where the first
ill-formed sequence starts and how long its longest well-formed beginning is.

The search for the defect reads one octet at a time. Inside a character it knows how many octets
are still owed and the range of the next one: the first octet fixes both, and after the second
octet every owed octet is a plain continuation.
-/

namespace Mqtt

namespace Utf8

/-- The octets of a text. -/
def encode (s : String) : Bytes := s.toUTF8.data.toList

/-- What is wrong with octets that are not well-formed text. -/
inductive Defect
  /-- The `length` octets at `start` begin no character that could go on as the input does. -/
  | invalid (start length : Nat)
  /-- The input ends inside the character at `start`. -/
  | incomplete (start : Nat)
  deriving DecidableEq, Repr

/-- The wording of a defect. -/
def Defect.message : Defect → String
  | .invalid start length => s!"invalid utf-8 sequence of {length} bytes from index {start}"
  | .incomplete start => s!"incomplete utf-8 byte sequence from index {start}"

/-- The octets owed after the first octet of a character, and the range of the next of them. -/
def lead (b : UInt8) : Option (Nat × UInt8 × UInt8) :=
  if b < 0x80 then some (0, 0x80, 0xBF)
  else if b < 0xC2 then none
  else if b < 0xE0 then some (1, 0x80, 0xBF)
  else if b = 0xE0 then some (2, 0xA0, 0xBF)
  else if b = 0xED then some (2, 0x80, 0x9F)
  else if b < 0xF0 then some (2, 0x80, 0xBF)
  else if b = 0xF0 then some (3, 0x90, 0xBF)
  else if b < 0xF4 then some (3, 0x80, 0xBF)
  else if b = 0xF4 then some (3, 0x80, 0x8F)
  else none

/-- The first defect from here on. The character being read starts at `start`, `read` of its
octets have been read, `owed` are missing, and the next of them lies between `low` and `high`. -/
def defectFrom (start read owed : Nat) (low high : UInt8) : Bytes → Option Defect
  | [] => if owed = 0 then none else some (.incomplete start)
  | b :: rest =>
    if owed = 0 then
      match lead b with
      | none => some (.invalid (start + read) 1)
      | some (n, lo, hi) => defectFrom (start + read) 1 n lo hi rest
    else if low ≤ b ∧ b ≤ high then defectFrom start (read + 1) (owed - 1) 0x80 0xBF rest
    else some (.invalid start read)

/-- The first defect of octets taken as text. -/
def defect (b : Bytes) : Option Defect := defectFrom 0 0 0 0x80 0xBF b

/-- The text with these octets, if they are well formed. -/
def decode? (b : Bytes) : Option String := String.fromUTF8? ⟨b.toArray⟩

theorem decode?_encode (s : String) : decode? (encode s) = some s := by
  simp only [decode?, encode, String.fromUTF8?, Array.toArray_toList, String.toUTF8_eq_toByteArray,
    dif_pos s.isValidUTF8]
  rfl

theorem eq_encode_of_decode? {b : Bytes} {s : String} (h : decode? b = some s) : b = encode s := by
  simp only [decode?, String.fromUTF8?] at h
  split at h
  · cases h
    simp [encode, String.fromUTF8]
  · cases h

end Utf8

end Mqtt
