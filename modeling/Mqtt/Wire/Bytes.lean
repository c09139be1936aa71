/-!
# Octets and words

Everything that travels is a list of octets. Words travel high octet first; they are split and put
together with division and remainder, so that facts about them are facts about natural numbers.

* `Bytes.ofWord`, `Bytes.ofLong`: the octets of a 16-bit and of a 32-bit number;
* `Bytes.word`, `Bytes.long`: the numbers back, with `word_ofWord` and `long_ofLong`;
* `Bytes.hex`: two upper-case hexadecimal digits, as messages show an octet.
-/

namespace Mqtt

/-- Octets in the order they travel. -/
abbrev Bytes := List UInt8

namespace Bytes

/-- The octets of a 16-bit number, high octet first. -/
def ofWord (w : UInt16) : Bytes :=
  [UInt8.ofNat (w.toNat / 256), UInt8.ofNat (w.toNat % 256)]

/-- The 16-bit number with these octets. -/
def word (hi lo : UInt8) : UInt16 :=
  UInt16.ofNat (hi.toNat * 256 + lo.toNat)

/-- The octets of a 32-bit number, high octet first. -/
def ofLong (w : UInt32) : Bytes :=
  ofWord (UInt16.ofNat (w.toNat / 65536)) ++ ofWord (UInt16.ofNat (w.toNat % 65536))

/-- The 32-bit number with these halves. -/
def long (hi lo : UInt16) : UInt32 :=
  UInt32.ofNat (hi.toNat * 65536 + lo.toNat)

@[simp] theorem length_ofWord (w : UInt16) : (ofWord w).length = 2 := rfl

@[simp] theorem length_ofLong (w : UInt32) : (ofLong w).length = 4 := rfl

theorem word_ofWord (w : UInt16) :
    word (UInt8.ofNat (w.toNat / 256)) (UInt8.ofNat (w.toNat % 256)) = w := by
  have h := w.toNat_lt
  apply UInt16.toNat_inj.1
  simp only [word, UInt16.toNat_ofNat', UInt8.toNat_ofNat']
  omega

theorem ofWord_word (hi lo : UInt8) : ofWord (word hi lo) = [hi, lo] := by
  have hhi := hi.toNat_lt
  have hlo := lo.toNat_lt
  have hw : (word hi lo).toNat = hi.toNat * 256 + lo.toNat := by
    rw [word, UInt16.toNat_ofNat']
    omega
  simp only [ofWord, hw, List.cons.injEq, and_true]
  constructor <;> apply UInt8.toNat_inj.1 <;> rw [UInt8.toNat_ofNat'] <;> omega

theorem long_ofLong (w : UInt32) :
    long (UInt16.ofNat (w.toNat / 65536)) (UInt16.ofNat (w.toNat % 65536)) = w := by
  have h := w.toNat_lt
  apply UInt32.toNat_inj.1
  simp only [long, UInt32.toNat_ofNat', UInt16.toNat_ofNat']
  omega

theorem ofLong_long (hi lo : UInt16) : ofLong (long hi lo) = ofWord hi ++ ofWord lo := by
  have hhi := hi.toNat_lt
  have hlo := lo.toNat_lt
  have hw : (long hi lo).toNat = hi.toNat * 65536 + lo.toNat := by
    rw [long, UInt32.toNat_ofNat']
    omega
  have hhigh : UInt16.ofNat ((long hi lo).toNat / 65536) = hi := by
    apply UInt16.toNat_inj.1
    rw [UInt16.toNat_ofNat', hw]
    omega
  have hlow : UInt16.ofNat ((long hi lo).toNat % 65536) = lo := by
    apply UInt16.toNat_inj.1
    rw [UInt16.toNat_ofNat', hw]
    omega
  rw [ofLong, hhigh, hlow]

/-- The hexadecimal digit of a number below sixteen, in upper case. -/
def hexDigit (n : Nat) : Char :=
  if n < 10 then Char.ofNat ('0'.toNat + n) else Char.ofNat ('A'.toNat + (n - 10))

/-- The two hexadecimal digits of an octet. -/
def hex (b : UInt8) : String :=
  String.ofList [hexDigit (b.toNat / 16), hexDigit (b.toNat % 16)]

end Bytes

end Mqtt
