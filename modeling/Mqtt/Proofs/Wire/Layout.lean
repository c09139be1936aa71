import Mqtt.Proofs.Wire.Reading

/-!
# Layouts

What a writer writes, as a list of parts: octets that stand for themselves, numbers, and fields
behind their lengths. A layout says which octets these are and how many, and it says when they can
be written at all: every number and every length has to fit into the octets that it is given.

`Output.Writes` relates a writer to its layout. A writer whose parts all fit writes their octets, and
one with a part that does not fit stops with an error.
-/

namespace Mqtt

/-- A part of what is written. -/
inductive Part
  | octets (b : Bytes)
  /-- A variable byte integer. -/
  | number (v : Nat)
  | binary (b : Bytes)
  | text (s : String)

namespace Part

/-- A number takes four octets at most, and the length of a field two. -/
def Fits : Part → Prop
  | .octets _ => True
  | .number v => v ≤ VarInt.max
  | .binary b => b.length ≤ Field.maxLength
  | .text s => s.utf8ByteSize ≤ Field.maxLength

/-- The octets of a part that fits. -/
def bytes : Part → Bytes
  | .octets b => b
  | .number v => VarInt.digits 3 v
  | .binary b => Field.prefixed b
  | .text s => Field.prefixed (Utf8.encode s)

/-- The number of octets of a part that fits. -/
def size : Part → Nat
  | .octets b => b.length
  | .number v => VarInt.size v
  | .binary b => Field.binarySize b
  | .text s => Field.textSize s

instance : DecidablePred Fits
  | .octets _ => .isTrue trivial
  | .number v => inferInstanceAs (Decidable (v ≤ VarInt.max))
  | .binary b => inferInstanceAs (Decidable (b.length ≤ Field.maxLength))
  | .text s => inferInstanceAs (Decidable (s.utf8ByteSize ≤ Field.maxLength))

end Part

theorem VarInt.length_digits (v : Nat) : (VarInt.digits 3 v).length = VarInt.size v := by
  simp only [VarInt.digits, VarInt.size, Nat.div_div_eq_div_mul]
  by_cases h₁ : v < 128
  · rw [if_pos h₁, if_pos h₁]
    rfl
  by_cases h₂ : v < 16384
  · have hd : v / 128 < 128 := by omega
    rw [if_neg h₁, if_neg h₁, if_pos hd, if_pos h₂]
    rfl
  have hd : ¬v / 128 < 128 := by omega
  by_cases h₃ : v < 2097152
  · have hd' : v / (128 * 128) < 128 := by omega
    rw [if_neg h₁, if_neg h₁, if_neg hd, if_pos hd', if_neg h₂, if_pos h₃]
    rfl
  · have hd' : ¬v / (128 * 128) < 128 := by omega
    rw [if_neg h₁, if_neg h₁, if_neg hd, if_neg hd', if_neg h₂, if_neg h₃]
    rfl

@[simp] theorem Utf8.length_encode (s : String) : (Utf8.encode s).length = s.utf8ByteSize :=
  rfl

theorem Field.length_prefixed (b : Bytes) : (Field.prefixed b).length = 2 + b.length := by
  rw [Field.prefixed, List.length_append, Bytes.length_ofWord]

theorem Part.length_bytes (p : Part) : p.bytes.length = p.size := by
  cases p with
  | octets b => rfl
  | number v => exact VarInt.length_digits v
  | binary b => exact Field.length_prefixed b
  | text s => rw [bytes, Field.length_prefixed, Utf8.length_encode, size, Field.textSize]

/-- What is written, part by part. -/
abbrev Layout := List Part

namespace Layout

/-- Whether every part can be written. -/
def Fits (l : Layout) : Prop := ∀ p ∈ l, p.Fits

/-- The octets of a layout that fits. -/
def bytes (l : Layout) : Bytes := l.flatMap Part.bytes

/-- The number of octets of a layout that fits. -/
def size : Layout → Nat
  | [] => 0
  | p :: l => p.size + size l

instance (l : Layout) : Decidable l.Fits := List.decidableBAll _ l

@[simp] theorem fits_nil : Fits [] := fun _ h => nomatch h

@[simp] theorem fits_cons {p : Part} {l : Layout} : Fits (p :: l) ↔ p.Fits ∧ Fits l :=
  List.forall_mem_cons

@[simp] theorem fits_append {l l' : Layout} : Fits (l ++ l') ↔ Fits l ∧ Fits l' :=
  List.forall_mem_append

@[simp] theorem bytes_nil : bytes [] = [] := rfl

@[simp] theorem bytes_cons (p : Part) (l : Layout) : bytes (p :: l) = p.bytes ++ bytes l :=
  List.flatMap_cons

@[simp] theorem bytes_append (l l' : Layout) : bytes (l ++ l') = bytes l ++ bytes l' :=
  List.flatMap_append

theorem bytes_flatMap {α : Type} (layout : α → Layout) (as : List α) :
    bytes (as.flatMap layout) = as.flatMap fun a => bytes (layout a) :=
  List.flatMap_assoc

theorem fits_flatMap {α : Type} {layout : α → Layout} {as : List α} :
    Fits (as.flatMap layout) ↔ ∀ a ∈ as, Fits (layout a) := by
  simp only [Fits, List.mem_flatMap]
  exact ⟨fun h a ha p hp => h p ⟨a, ha, hp⟩, fun h p ⟨a, ha, hp⟩ => h a ha p hp⟩

theorem fits_getD_map {α : Type} {layout : α → Layout} {o : Option α} :
    Fits ((o.map layout).getD []) ↔ ∀ a, o = some a → Fits (layout a) := by
  cases o <;> simp

theorem bytes_singleton (p : Part) : bytes [p] = p.bytes := by
  rw [bytes_cons, bytes_nil, List.append_nil]

theorem fits_singleton {p : Part} : Fits [p] ↔ p.Fits := by
  rw [fits_cons, and_iff_left fits_nil]

@[simp] theorem size_nil : size [] = 0 := rfl

@[simp] theorem size_cons (p : Part) (l : Layout) : size (p :: l) = p.size + size l := rfl

@[simp] theorem size_append (l l' : Layout) : size (l ++ l') = size l + size l' := by
  induction l with
  | nil => exact (Nat.zero_add _).symm
  | cons p l ih => rw [List.cons_append, size_cons, ih, size_cons, Nat.add_assoc]

theorem length_bytes (l : Layout) : l.bytes.length = l.size := by
  induction l with
  | nil => rfl
  | cons p l ih => rw [bytes_cons, List.length_append, Part.length_bytes, ih, size_cons]

end Layout

/-! ## Writers -/

namespace Output

/-- A writer writes the parts of a layout, or stops because one of them does not fit. -/
structure Writes (o : Output) (l : Layout) : Prop where
  written : l.Fits → o = .put l.bytes
  refused : ¬l.Fits → ∃ e, o.error = some e

variable {o o' : Output} {l l' : Layout}

theorem error_append_of_some {e : Error} (h : o.error = some e) : (o ++ o').error = some e := by
  obtain ⟨b, e'⟩ := o
  cases h
  rfl

theorem error_put_append (b : Bytes) (o : Output) : (put b ++ o).error = o.error := rfl

theorem Writes.append (h : o.Writes l) (h' : o'.Writes l') : (o ++ o').Writes (l ++ l') where
  written hfits := by
    obtain ⟨hl, hl'⟩ := Layout.fits_append.1 hfits
    rw [h.written hl, h'.written hl', put_append_put, Layout.bytes_append]
  refused hfits := by
    by_cases hl : l.Fits
    · have hl' : ¬l'.Fits := fun hl' => hfits (Layout.fits_append.2 ⟨hl, hl'⟩)
      obtain ⟨e, he⟩ := h'.refused hl'
      exact ⟨e, by rw [h.written hl, error_put_append, he]⟩
    · obtain ⟨e, he⟩ := h.refused hl
      exact ⟨e, error_append_of_some he⟩

/-- To stop at once is right if the layout cannot be written. -/
theorem writes_fail (h : ¬l.Fits) (e : Error) : (fail e).Writes l where
  written hfits := absurd hfits h
  refused _ := ⟨e, rfl⟩

/-- A writer of one part that tests whether the part fits. -/
theorem writes_part {p : Part} {e : Error} (hp : p.Fits → o = .put p.bytes)
    (he : ¬p.Fits → o = .fail e) : o.Writes [p] := by
  by_cases hfits : p.Fits
  · rw [hp hfits]
    exact ⟨fun _ => by rw [Layout.bytes_singleton],
      fun h => absurd (Layout.fits_singleton.2 hfits) h⟩
  · rw [he hfits]
    exact writes_fail (mt Layout.fits_singleton.1 hfits) e

theorem writes_empty : empty.Writes [] where
  written _ := rfl
  refused h := absurd Layout.fits_nil h

theorem writes_put (b : Bytes) : (put b).Writes [.octets b] :=
  writes_part (e := .underflow) (fun _ => rfl) (fun h => absurd trivial h)

theorem writes_number (v : Nat) : (VarInt.encode v).Writes [.number v] :=
  writes_part (fun h => if_pos h) (fun h => if_neg h)

/-- A length beyond 32 bits is refused with an error of its own. -/
theorem writes_length (n limit : Nat) : (VarInt.encodeLength n limit).Writes [.number n] := by
  by_cases h : n < 4294967296
  · rw [VarInt.encodeLength, if_pos h]
    exact writes_number n
  · have hlarge : ¬(Part.number n).Fits := by
      rw [Part.Fits, VarInt.max]
      omega
    rw [VarInt.encodeLength, if_neg h]
    exact writes_fail (mt Layout.fits_singleton.1 hlarge) _

theorem writes_binary (b : Bytes) : (Field.encodeBinary b).Writes [.binary b] :=
  writes_part (fun h => if_pos h) (fun h => if_neg h)

theorem writes_text (s : String) : (Field.encodeText s).Writes [.text s] :=
  writes_part (fun h => if_pos (by rwa [Utf8.length_encode]))
    (fun h => if_neg (by rwa [Utf8.length_encode]))

theorem Writes.cons {p : Part} (h : o.Writes [p]) (h' : o'.Writes l) : (o ++ o').Writes (p :: l) :=
  h.append h'

/-- One thing after another is written, each in its layout. -/
theorem writes_concat {α : Type} {write : α → Output} {layout : α → Layout}
    (h : ∀ a, (write a).Writes (layout a)) (as : List α) :
    (concat (as.map write)).Writes (as.flatMap layout) := by
  induction as with
  | nil => exact writes_empty
  | cons a as ih =>
    rw [List.map_cons, concat_cons, List.flatMap_cons]
    exact (h a).append ih

/-- What is there is written, and what is not there leaves no trace. -/
theorem writes_option {α : Type} {write : α → Output} {layout : α → Layout}
    (h : ∀ a, (write a).Writes (layout a)) (o : Option α) :
    ((o.map write).getD .empty).Writes ((o.map layout).getD []) := by
  cases o with
  | none => exact writes_empty
  | some a => exact h a

/-- The octets that come out in the end. -/
theorem Writes.toExcept (h : o.Writes l) :
    (l.Fits → o.toExcept = .ok l.bytes) ∧ (¬l.Fits → ∃ e, o.toExcept = .error e) := by
  constructor
  · intro hfits
    rw [h.written hfits, toExcept_put]
  · intro hfits
    obtain ⟨e, he⟩ := h.refused hfits
    exact ⟨e, by rw [Output.toExcept, he]⟩

end Output

end Mqtt
