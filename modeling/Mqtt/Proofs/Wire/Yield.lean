import Mathlib.Data.List.Forall2
import Mqtt.Proofs.Wire.Guard
import Mqtt.Proofs.Wire.Layout
import Mqtt.Proofs.Wire.Spelling

/-!
# What was taken off the front

`Decoder.Yields` says of a decoder what is known once it has succeeded: it has taken some octets off
the front of the input, and these octets and the value stand in a given relation. Nothing is said of
the input that it accepts; that is `Decoder.Reads`. The rules follow the ways in which decoders are
put together.

A decoder may accept more spellings of a value than the one that is written. `Layout.Spelled` says
that the octets that were read are those of a layout but for the spellings of its numbers, and
`Layout.Within` that what would be written can be written, and is no longer than the octets that
were read.
-/

namespace Mqtt

namespace Decoder

variable {α β : Type}

/-- Once the decoder has succeeded, it has taken octets off the front, and they and the value are as
`P` says. -/
def Yields (d : Decoder α) (P : Bytes → α → Prop) : Prop :=
  ∀ s s' a, d.run s = .ok (a, s') → ∃ b, s.bytes = b ++ s'.bytes ∧ P b a

variable {d : Decoder α} {f : α → Decoder β} {P P' : Bytes → α → Prop} {R : Bytes → β → Prop}

/-! ## Putting decoders together -/

theorem Yields.imp (h : d.Yields P) (hP : ∀ b a, P b a → P' b a) : d.Yields P' := by
  intro s s' a hrun
  obtain ⟨b, hs, hPa⟩ := h s s' a hrun
  exact ⟨b, hs, hP b a hPa⟩

theorem Yields.bind (h : d.Yields P)
    (hf : ∀ b a, P b a → (f a).Yields fun b' c => R (b ++ b') c) : (d >>= f).Yields R := by
  intro s s' c hrun
  obtain ⟨a, s₁, hd, hrun⟩ := bind_eq_ok_iff.1 hrun
  obtain ⟨b, hs, hP⟩ := h s s₁ a hd
  obtain ⟨b', hs₁, hR⟩ := hf b a hP s₁ s' c hrun
  exact ⟨b ++ b', by rw [hs, hs₁, List.append_assoc], hR⟩

theorem yields_pure {a : α} (h : P [] a) : (pure a : Decoder α).Yields P := by
  intro s s' a' hrun
  obtain ⟨rfl, rfl⟩ := pure_eq_ok_iff.1 hrun
  exact ⟨[], rfl, h⟩

theorem yields_refuse (e : Error) : (refuse e : Decoder α).Yields P :=
  fun _ _ _ hrun => absurd hrun refuse_ne_ok

theorem Yields.map {g : α → β} (h : d.Yields P) (hg : ∀ b a, P b a → R b (g a)) :
    (g <$> d).Yields R := by
  intro s s' c hrun
  obtain ⟨a, rfl, hd⟩ := map_eq_ok_iff.1 hrun
  obtain ⟨b, hs, hP⟩ := h s s' a hd
  exact ⟨b, hs, hg b a hP⟩

/-- What is read last may be passed on. -/
theorem Yields.bind_pure {g : α → β} (h : d.Yields P) (hg : ∀ b a, P b a → R b (g a)) :
    (d >>= fun a => pure (g a)).Yields R := by
  rw [bind_pure_comp]
  exact h.map hg

/-! ## Looking ahead -/

/-- Looking ahead takes nothing. -/
theorem yields_get {f : Segments → Decoder β} (hf : ∀ s, (f s).Yields R) :
    (get >>= f).Yields R := by
  intro s s' c hrun
  obtain ⟨s₀, s₁, hget, hrun⟩ := bind_eq_ok_iff.1 hrun
  obtain ⟨-, rfl⟩ : s = s₀ ∧ s = s₁ := pure_eq_ok_iff.1 hget
  exact hf s₀ s s' c hrun

theorem yields_has {n : Nat} {f : Bool → Decoder β} (hf : ∀ enough, (f enough).Yields R) :
    (has n >>= f).Yields R :=
  yields_get fun s => hf (s.hasAtLeast n)

theorem yields_atEnd {f : Bool → Decoder β} (hf : ∀ done, (f done).Yields R) :
    (atEnd >>= f).Yields R := by
  rw [atEnd, bind_assoc]
  exact yields_has fun enough => by simpa using hf !enough

theorem yields_remaining {f : Nat → Decoder β} (hf : ∀ n, (f n).Yields R) :
    (remaining >>= f).Yields R :=
  yields_get fun s => hf s.remaining

/-- What is required is met. -/
theorem yields_require {c : Bool} {e : Error} {f : Unit → Decoder β} (hf : c → (f ()).Yields R) :
    (require c e >>= f).Yields R := by
  cases c with
  | false =>
    intro s s' c hrun
    obtain ⟨_, _, hrequire, -⟩ := bind_eq_ok_iff.1 hrun
    exact absurd (require_eq_ok_iff.1 hrequire).1 (by simp)
  | true => exact hf rfl

/-- So many octets are required, and looked at further on. -/
theorem yields_requireHas {n : Nat} {e : Error} {f : Unit → Decoder β} (hf : (f ()).Yields R) :
    (has n >>= fun enough => require enough e >>= f).Yields R :=
  yields_has fun _ => yields_require fun _ => hf

/-! ## Octets and words -/

theorem yields_u8 : u8.Yields fun b x => b = [x] :=
  fun _ _ x hrun => ⟨[x], bytes_of_u8 hrun, rfl⟩

theorem yields_u16 : u16.Yields fun b w => b = Bytes.ofWord w := by
  intro s s' w hrun
  obtain ⟨hi, lo, hs, rfl⟩ := bytes_of_u16 hrun
  exact ⟨_, by rw [Bytes.ofWord_word]; exact hs, rfl⟩

theorem yields_u32 : u32.Yields fun b w => b = Bytes.ofLong w :=
  yields_u16.bind fun _ hi hhi => yields_u16.bind_pure fun _ lo hlo => by
    rw [hhi, hlo, Bytes.ofLong_long]

theorem yields_take (n : Nat) : (take n).Yields fun b a => b = a ∧ a.length = n :=
  fun _ _ a hrun => ⟨a, (bytes_of_take hrun).1, rfl, (bytes_of_take hrun).2⟩

theorem yields_rest : rest.Yields fun b a => b = a :=
  yields_remaining fun n => (yields_take n).imp fun _ _ => And.left

/-- Octets may be left over. -/
theorem Yields.runOn {b : Bytes} {a : α} (h : d.Yields P) (hrun : d.runOn b = .ok a) :
    ∃ front rest, b = front ++ rest ∧ P front a := by
  obtain ⟨⟨a', s'⟩, hok, rfl⟩ := Except.map_eq_ok_iff.1 hrun
  obtain ⟨front, hs, hP⟩ := h _ _ _ hok
  rw [Segments.bytes_ofBytes] at hs
  exact ⟨front, s'.bytes, hs, hP⟩

/-- What is there was read, and what is not there took nothing. -/
theorem Yields.optionally (h : d.Yields P) (c : Bool) :
    (optionally c d).Yields fun b o => o = none ∧ b = [] ∨ ∃ a, o = some a ∧ P b a := by
  cases c with
  | false => exact yields_pure (.inl ⟨rfl, rfl⟩)
  | true => exact h.map fun b a hP => .inr ⟨a, rfl, hP⟩

/-! ## Items -/

/-- The octets of the items are those of each of them, one after the other. -/
def Each (P : Bytes → α → Prop) (b : Bytes) (as : List α) : Prop :=
  ∃ bs : List Bytes, b = bs.flatten ∧ List.Forall₂ P bs as

theorem each_nil : Each P [] [] := ⟨[], rfl, .nil⟩

theorem Each.cons {b b' : Bytes} {a : α} {as : List α} (ha : P b a) (has : Each P b' as) :
    Each P (b ++ b') (a :: as) := by
  obtain ⟨bs, rfl, hbs⟩ := has
  exact ⟨b :: bs, rfl, .cons ha hbs⟩

theorem Each.imp {b : Bytes} {as : List α} (h : Each P b as) (hP : ∀ b a, P b a → P' b a) :
    Each P' b as := by
  obtain ⟨bs, rfl, hbs⟩ := h
  exact ⟨bs, rfl, hbs.imp fun b a => hP b a⟩

theorem Each.mem {b : Bytes} {as : List α} (h : Each P b as) : ∀ a ∈ as, ∃ b', P b' a := by
  obtain ⟨bs, -, hbs⟩ := h
  intro a ha
  obtain ⟨i, hi, rfl⟩ := List.getElem_of_mem ha
  exact ⟨_, hbs.get (hbs.length_eq ▸ hi) hi⟩

/-- Items of an octet each. -/
theorem Each.eq_map {g : α → UInt8} {b : Bytes} {as : List α}
    (h : Each (fun b a => b = [g a]) b as) : b = as.map g := by
  obtain ⟨bs, rfl, hbs⟩ := h
  induction hbs with
  | nil => rfl
  | cons ha _ ih => rw [List.flatten_cons, ih, ha, List.map_cons, List.singleton_append]

theorem Yields.itemsUpTo (h : d.Yields P) (fuel : Nat) : (itemsUpTo d fuel).Yields (Each P) := by
  induction fuel with
  | zero => exact yields_pure each_nil
  | succ fuel ih =>
    refine yields_atEnd fun done => ?_
    cases done with
    | true => exact yields_pure each_nil
    | false => exact h.bind fun b a ha => ih.bind_pure fun b' as has => .cons ha has

theorem Yields.items (h : d.Yields P) : (items d).Yields (Each P) :=
  yields_remaining fun n => h.itemsUpTo n

/-- If something is left, there is an item. -/
theorem items_ne_nil {s s' : Segments} {as : List α} (hs : s.hasAtLeast 1)
    (hrun : (Decoder.items d).run s = .ok (as, s')) : as ≠ [] := by
  have hleft : 1 ≤ s.remaining := (Segments.hasAtLeast_iff s 1).1 hs
  obtain ⟨n, s₁, hn, hrun⟩ := bind_eq_ok_iff.1 hrun
  obtain ⟨rfl, rfl⟩ : s.remaining = n ∧ s = s₁ := pure_eq_ok_iff.1 hn
  obtain ⟨n, hn⟩ := Nat.exists_eq_add_of_le' hleft
  rw [hn] at hrun
  obtain ⟨done, s₁, hdone, hrun⟩ := bind_eq_ok_iff.1 hrun
  obtain ⟨enough, s₂, henough, hpure⟩ := bind_eq_ok_iff.1 hdone
  obtain ⟨rfl, rfl⟩ := has_eq_ok_iff.1 henough
  obtain ⟨rfl, rfl⟩ := pure_eq_ok_iff.1 hpure
  rw [hs] at hrun
  obtain ⟨a, s₁, -, hrun⟩ := bind_eq_ok_iff.1 hrun
  obtain ⟨as', s₂, -, hrun⟩ := bind_eq_ok_iff.1 hrun
  obtain ⟨rfl, -⟩ := pure_eq_ok_iff.1 hrun
  exact List.cons_ne_nil a as'

/-- Where something is required to be left, an item is read. -/
theorem Yields.requireItems {e : Error} {f : List α → Decoder β} (h : d.Yields P)
    (hf : ∀ b as, as ≠ [] → Each P b as → (f as).Yields fun b' c => R (b ++ b') c) :
    (has 1 >>= fun enough => require enough e >>= fun _ => Decoder.items d >>= f).Yields R := by
  intro s s' c hrun
  obtain ⟨enough, s₁, hhas, hrun⟩ := bind_eq_ok_iff.1 hrun
  obtain ⟨rfl, rfl⟩ := has_eq_ok_iff.1 hhas
  obtain ⟨_, s₁, hrequire, hrun⟩ := bind_eq_ok_iff.1 hrun
  obtain ⟨hleft, rfl⟩ := require_eq_ok_iff.1 hrequire
  have hne : ∀ as s₁, (Decoder.items d).run s = .ok (as, s₁) → as ≠ [] := fun _ _ =>
    items_ne_nil hleft
  obtain ⟨as, s₁, hitems, hrun⟩ := bind_eq_ok_iff.1 hrun
  obtain ⟨b, hs, hP⟩ := h.items s s₁ as hitems
  obtain ⟨b', hs₁, hR⟩ := hf b as (hne as s₁ hitems) hP s₁ s' c hrun
  exact ⟨b ++ b', by rw [hs, hs₁, List.append_assoc], hR⟩

end Decoder

open Decoder

/-! ## Numbers -/

namespace VarInt

theorem yields_decode : decode.Yields (Spells 4) := by
  intro s s' v hrun
  have hscans := scans_decode s
  rw [hrun] at hscans
  cases hscans with
  | found hscan hrest =>
    exact ⟨_, by rw [hrest, List.take_append_drop], spells_of_scan hscan⟩

end VarInt

/-! ## Fields -/

namespace Field

theorem yields_binary : binary.Yields fun b x => b = prefixed x ∧ x.length ≤ maxLength := by
  refine yields_has fun _ => yields_require fun _ => yields_u16.bind fun b n hb => ?_
  subst hb
  refine yields_has fun enough => ?_
  cases enough with
  | false =>
    exact yields_remaining fun _ => (yields_refuse _).bind (P := fun _ _ => False)
      fun _ _ => False.elim
  | true =>
    refine (yields_take n.toNat).imp fun b x ⟨hb, hx⟩ => ?_
    subst hb
    rw [prefixed, hx, UInt16.ofNat_toNat]
    exact ⟨rfl, Nat.le_of_lt_succ n.toNat_lt⟩

theorem yields_text :
    text.Yields fun b s => b = prefixed (Utf8.encode s) ∧ s.utf8ByteSize ≤ maxLength := by
  refine yields_binary.bind fun b x ⟨hb, hx⟩ => ?_
  split
  · rename_i s hs
    obtain rfl := Utf8.eq_encode_of_decode? hs
    refine yields_pure ?_
    rw [List.append_nil]
    exact ⟨hb, hx⟩
  · exact yields_refuse _

end Field

/-! ## Layouts -/

namespace Layout

/-- The layout can be written, and in no more octets than these. -/
def Within (l : Layout) (b : Bytes) : Prop := l.Fits ∧ l.size ≤ b.length

variable {l l' : Layout} {b b' : Bytes} {p : Part}

theorem within_nil : Within [] b := ⟨fits_nil, Nat.zero_le b.length⟩

theorem Within.append (h : l.Within b) (h' : l'.Within b') : (l ++ l').Within (b ++ b') := by
  refine ⟨fits_append.2 ⟨h.1, h'.1⟩, ?_⟩
  rw [size_append, List.length_append]
  exact Nat.add_le_add h.2 h'.2

theorem Within.cons (h : Within [p] b) (h' : l.Within b') : Within (p :: l) (b ++ b') :=
  h.append h'

theorem within_singleton : Within [p] b ↔ p.Fits ∧ p.size ≤ b.length := by
  rw [Within, fits_singleton, size_cons, size_nil, Nat.add_zero]

theorem within_octets (b : Bytes) : Within [.octets b] b :=
  within_singleton.2 ⟨trivial, Nat.le_refl _⟩

theorem Within.mono {c : Bytes} (h : l.Within b) (hc : b.length ≤ c.length) : l.Within c :=
  ⟨h.1, Nat.le_trans h.2 hc⟩

/-- A layout with parts left out. -/
theorem Within.sublist (h : l.Within b) (hsub : List.Sublist l' l) : l'.Within b := by
  refine ⟨fun p hp => h.1 p (hsub.subset hp), Nat.le_trans (?_ : l'.size ≤ l.size) h.2⟩
  clear h
  induction hsub with
  | slnil => exact Nat.le_refl _
  | cons p _ ih => exact Nat.le_trans ih (Nat.le_add_left _ _)
  | cons_cons p _ ih => exact Nat.add_le_add_left ih _

/-- The layout of items that were read one after the other. -/
theorem within_flatMap {α : Type} {layout : α → Layout} {as : List α}
    (h : Each (fun b a => (layout a).Within b) b as) : Within (as.flatMap layout) b := by
  obtain ⟨bs, rfl, hbs⟩ := h
  induction hbs with
  | nil => exact within_nil
  | cons ha _ ih => exact ha.append ih

end Layout

/-! ### Spellings -/

/-- Of two strings that are each no longer than another, the concatenations are equal only if both
are. -/
theorem Bytes.append_eq_append_iff_of_le {x x' y y' : Bytes} (hx : x.length ≤ y.length)
    (hx' : x'.length ≤ y'.length) : x ++ x' = y ++ y' ↔ x = y ∧ x' = y' := by
  constructor
  · intro h
    have hlen := congrArg List.length h
    rw [List.length_append, List.length_append] at hlen
    exact List.append_inj h (by omega)
  · rintro ⟨rfl, rfl⟩
    rfl

namespace Part

/-- The octets are those of the part, with the spelling of its number if it is one. -/
inductive Spelled : Part → List Bytes → Bytes → Prop
  | octets (b : Bytes) : Spelled (.octets b) [] b
  | number {v : Nat} {b : Bytes} (h : VarInt.Spells 4 b v) : Spelled (.number v) [b] b
  | binary {x : Bytes} (h : x.length ≤ Field.maxLength) :
      Spelled (.binary x) [] (Field.prefixed x)
  | text {s : String} (h : s.utf8ByteSize ≤ Field.maxLength) :
      Spelled (.text s) [] (Field.prefixed (Utf8.encode s))

variable {p : Part} {numbers : List Bytes} {b : Bytes}

theorem Spelled.within (h : p.Spelled numbers b) : Layout.Within [p] b := by
  rw [Layout.within_singleton]
  cases h with
  | octets b => exact ⟨trivial, Nat.le_refl _⟩
  | number h => exact ⟨h.le_max, h.size_le⟩
  | binary h => exact ⟨h, Nat.le_of_eq (Field.length_prefixed _).symm⟩
  | text h => exact ⟨h, Nat.le_of_eq (by rw [Field.length_prefixed, Utf8.length_encode]; rfl)⟩

theorem Spelled.bytes_eq_iff (h : p.Spelled numbers b) :
    p.bytes = b ↔ ∀ n ∈ numbers, ¬VarInt.Padded n := by
  cases h with
  | number h =>
    rw [List.forall_mem_singleton]
    exact h.digits_eq_iff
  | octets | binary | text => exact ⟨fun _ => List.forall_mem_nil _, fun _ => rfl⟩

end Part

namespace Layout

variable {l l' : Layout} {p : Part} {numbers numbers' : List Bytes} {b b' : Bytes}

/-- The octets are those of the parts, one after the other, with the spellings of the numbers among
them. -/
inductive Spelled : Layout → List Bytes → Bytes → Prop
  | nil : Spelled [] [] []
  | cons {p : Part} {l : Layout} {numbers numbers' : List Bytes} {b b' : Bytes}
      (hp : p.Spelled numbers b) (hl : Spelled l numbers' b') :
      Spelled (p :: l) (numbers ++ numbers') (b ++ b')

theorem spelled_singleton (h : p.Spelled numbers b) : Spelled [p] numbers b := by
  have hcons := Spelled.cons h .nil
  rwa [List.append_nil, List.append_nil] at hcons

theorem Spelled.append (h : l.Spelled numbers b) (h' : l'.Spelled numbers' b') :
    (l ++ l').Spelled (numbers ++ numbers') (b ++ b') := by
  induction h with
  | nil => exact h'
  | cons hp _ ih =>
    rw [List.append_assoc, List.append_assoc]
    exact .cons hp ih

theorem Spelled.within (h : l.Spelled numbers b) : l.Within b := by
  induction h with
  | nil => exact within_nil
  | cons hp _ ih => exact hp.within.cons ih

/-- What would be written is what was read unless the spelling of a number is padded. -/
theorem Spelled.bytes_eq_iff (h : l.Spelled numbers b) :
    l.bytes = b ↔ ∀ n ∈ numbers, ¬VarInt.Padded n := by
  induction h with
  | nil => exact ⟨fun _ => List.forall_mem_nil _, fun _ => rfl⟩
  | @cons p l _ _ b b' hp hl ih =>
    have hfirst : p.bytes.length ≤ b.length := by
      rw [Part.length_bytes]
      exact (within_singleton.1 hp.within).2
    have hrest : l.bytes.length ≤ b'.length := by
      rw [length_bytes]
      exact hl.within.2
    rw [bytes_cons, Bytes.append_eq_append_iff_of_le hfirst hrest, hp.bytes_eq_iff, ih,
      List.forall_mem_append]

end Layout

namespace Decoder

theorem within_u16 : u16.Yields fun b w => Layout.Within [.octets (Bytes.ofWord w)] b :=
  yields_u16.imp fun _ _ hb => hb ▸ Layout.within_octets _

theorem spelled_binary : Field.binary.Yields fun b x => (Part.binary x).Spelled [] b :=
  Field.yields_binary.imp fun _ _ ⟨hb, hx⟩ => hb ▸ .binary hx

theorem spelled_text : Field.text.Yields fun b s => (Part.text s).Spelled [] b :=
  Field.yields_text.imp fun _ _ ⟨hb, hs⟩ => hb ▸ .text hs

theorem within_binary : Field.binary.Yields fun b x => Layout.Within [.binary x] b :=
  spelled_binary.imp fun _ _ => Part.Spelled.within

theorem within_text : Field.text.Yields fun b s => Layout.Within [.text s] b :=
  spelled_text.imp fun _ _ => Part.Spelled.within

/-- What may be left out, with the layout of what is there. -/
theorem within_optionally {α : Type} {d : Decoder α} {layout : α → Layout} {Q : α → Prop}
    (h : d.Yields fun b a => Q a ∧ (layout a).Within b) (c : Bool) :
    (optionally c d).Yields fun b o =>
      (∀ a, o = some a → Q a) ∧ Layout.Within ((o.map layout).getD []) b := by
  refine (h.optionally c).imp fun b o ho => ?_
  rcases ho with ⟨rfl, rfl⟩ | ⟨a, rfl, hQ, hwithin⟩
  · exact ⟨nofun, Layout.within_nil⟩
  · refine ⟨fun a' ha' => ?_, hwithin⟩
    rwa [← Option.some.inj ha']

end Decoder

end Mqtt
