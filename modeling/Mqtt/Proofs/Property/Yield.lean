import Mathlib.Data.List.Flatten
import Mqtt.Proofs.Property.Block
import Mqtt.Proofs.Wire.Drain

/-!
# Property blocks that were read

A block may spell its length, the identifiers and the numbers in it with more octets than they need:
`Properties.Spelled`. But for that its octets are those of the properties that are read from it
(`Properties.spelled_decode`), and these are sound and can be written again, in no more octets
(`Properties.yields_decode`).
-/

namespace Mqtt

open Decoder

theorem VarInt.size_mono {v w : Nat} (h : v ≤ w) : size v ≤ size w := by
  unfold size
  split_ifs <;> omega

namespace Properties

variable {β : Type} {R : Bytes → β → Prop} {ps : Properties} {numbers : List Bytes} {b : Bytes}

theorem yields_requireWidth {p : Property} {width : Nat} {f : Unit → Decoder β}
    (hf : (f ()).Yields R) : (requireWidth p width >>= f).Yields R := by
  rw [requireWidth, bind_assoc]
  exact yields_has fun _ => yields_require fun _ => hf

theorem yields_decodeValue (p : Property) :
    (decodeValue p).Yields fun b v => v.shape = p.shape ∧ ∃ numbers, v.layout.Spelled numbers b := by
  unfold decodeValue
  cases hp : p.shape with
  | byte =>
    refine yields_requireWidth (yields_u8.bind_pure fun b v hb => ⟨rfl, [], ?_⟩)
    exact hb ▸ Layout.spelled_singleton (.octets [v])
  | word =>
    refine yields_requireWidth (yields_u16.bind_pure fun b v hb => ⟨rfl, [], ?_⟩)
    exact hb ▸ Layout.spelled_singleton (.octets (Bytes.ofWord v))
  | long =>
    refine yields_requireWidth (yields_u32.bind_pure fun b v hb => ⟨rfl, [], ?_⟩)
    exact hb ▸ Layout.spelled_singleton (.octets (Bytes.ofLong v))
  | varInt =>
    exact VarInt.yields_decode.bind_pure fun b v hb => ⟨rfl, _, Layout.spelled_singleton (.number hb)⟩
  | binary => exact spelled_binary.bind_pure fun b v hb => ⟨rfl, _, Layout.spelled_singleton hb⟩
  | text => exact spelled_text.bind_pure fun b v hb => ⟨rfl, _, Layout.spelled_singleton hb⟩
  | pair =>
    exact spelled_text.bind fun b k hk => spelled_text.bind_pure fun b' v hv =>
      ⟨rfl, _, .cons hk (Layout.spelled_singleton hv)⟩

/-- An identifier is read as a number, and a property has only one that fits into an octet. -/
theorem yields_decodeIdentifier :
    decodeIdentifier.Yields fun b p => VarInt.Spells 4 b p.toByte.toNat := by
  refine VarInt.yields_decode.bind fun b n hb => yields_require fun hn => ?_
  split
  · rename_i p hp
    refine yields_pure ?_
    have hid : p.toByte = UInt8.ofNat n := toByte_of_find? hp
    rw [List.append_nil, hid, UInt8.toNat_ofNat', Nat.mod_eq_of_lt (of_decide_eq_true hn)]
    exact hb
  · exact yields_refuse _

/-- The layout of a property whose identifier is spelled out as a number. -/
def itemSpelling (item : Property × Value) : Layout :=
  .number item.1.toByte.toNat :: item.2.layout

theorem bytes_itemSpelling (item : Property × Value) :
    (itemSpelling item).bytes = (itemLayout item).bytes := by
  have hid : (Part.number item.1.toByte.toNat).bytes = [item.1.toByte] := item.1.digits_toByte
  rw [itemSpelling, itemLayout, Layout.bytes_cons, Layout.bytes_cons, hid, Part.bytes]

theorem bytes_spelling (ps : Properties) :
    Layout.bytes (ps.items.flatMap itemSpelling) = ps.body.bytes := by
  rw [body, Layout.bytes_flatMap, Layout.bytes_flatMap]
  simp only [bytes_itemSpelling]

/-- An identifier that is a number may take more than one octet. -/
theorem within_body (h : Layout.Within (ps.items.flatMap itemSpelling) b) : ps.body.Within b := by
  constructor
  · refine Layout.fits_flatMap.2 fun item hitem => Layout.fits_cons.2 ⟨trivial, ?_⟩
    exact (Layout.fits_cons.1 (Layout.fits_flatMap.1 h.1 item hitem)).2
  · rw [← Layout.length_bytes, ← bytes_spelling, Layout.length_bytes]
    exact h.2

/-- A property takes an octet or more, since its identifier does. -/
theorem length_pos_of_spelled {item : Property × Value}
    (h : (itemSpelling item).Spelled numbers b) : 0 < b.length := by
  cases h with
  | cons hid _ =>
    cases hid with
    | number hid =>
      rw [List.length_append]
      exact Nat.lt_of_lt_of_le hid.length_pos (Nat.le_add_right _ _)

/-- The octets are those of a block with these properties. The first of the spellings is that of the
length. -/
inductive Spelled (ps : Properties) : List Bytes → Bytes → Prop
  | mk {length : Bytes} {numbers : List Bytes} {body : Bytes}
      (hlength : VarInt.Spells 4 length body.length)
      (hbody : Layout.Spelled (ps.items.flatMap itemSpelling) numbers body) :
      Spelled ps (length :: numbers) (length ++ body)

theorem yields_decodeItem (ps : Properties) : (decodeItem ps).Yields fun b ps' =>
    ∃ item numbers, ps.add item.1 item.2 = .ok ps' ∧ (itemSpelling item).Spelled numbers b := by
  refine yields_decodeIdentifier.bind fun b p hb =>
    (yields_decodeValue p).bind fun b' v ⟨_, numbers, hv⟩ => ?_
  split
  · rename_i ps' hadd
    refine yields_pure ⟨(p, v), [b] ++ numbers, hadd, ?_⟩
    rw [List.append_nil]
    exact .cons (.number hb) hv
  · exact yields_refuse _

/-- The properties that were read stand behind those that there were. -/
theorem yields_decodeItems (fuel : Nat) {ps : Properties} (hps : ps.Sound) :
    (decodeItems fuel ps).Yields fun b ps' => ps'.Sound ∧ ∃ more numbers,
      ps'.items = ps.items ++ more ∧ Layout.Spelled (more.flatMap itemSpelling) numbers b := by
  have hnone : ∀ ps : Properties, ps.Sound → ps.Sound ∧ ∃ more numbers,
      ps.items = ps.items ++ more ∧ Layout.Spelled (more.flatMap itemSpelling) numbers [] :=
    fun ps hps => ⟨hps, [], [], (List.append_nil _).symm, .nil⟩
  induction fuel generalizing ps with
  | zero => exact yields_pure (hnone ps hps)
  | succ fuel ih =>
    refine yields_atEnd fun done => ?_
    cases done with
    | true => exact yields_pure (hnone ps hps)
    | false =>
      refine (yields_decodeItem ps).bind fun b ps' ⟨item, numbers, hadd, hitem⟩ => ?_
      refine (ih (hps.add hadd)).imp fun b' ps'' ⟨hsound, more, numbers', hmore, hspelled⟩ => ?_
      obtain ⟨-, -, rfl⟩ := add_eq_ok_iff.1 hadd
      refine ⟨hsound, item :: more, numbers ++ numbers', ?_, hitem.append hspelled⟩
      rw [hmore, List.append_assoc, List.singleton_append]

/-- There is fuel for a property in each octet. -/
theorem drains_decodeItems (fuel : Nat) (ps : Properties) : (decodeItems fuel ps).Drains fuel := by
  induction fuel generalizing ps with
  | zero => exact drains_pure ps
  | succ fuel ih =>
    refine drains_atEnd (drains_pure ps) ?_
    refine (yields_decodeItem ps).drains fun b ps' ⟨item, numbers, _, hitem⟩ =>
      (ih ps').mono ?_
    have hpos := length_pos_of_spelled hitem
    omega

/-- A block was read to its end, and its octets are those of the properties but for the spellings of
its numbers. -/
theorem spelled_decode : decode.Yields fun b ps => ps.Sound ∧ ∃ numbers, ps.Spelled numbers b := by
  refine VarInt.yields_decode.bind fun b n hb => yields_has fun enough => ?_
  cases enough with
  | false =>
    exact yields_remaining fun _ => (yields_refuse _).bind (P := fun _ _ => False)
      fun _ _ => False.elim
  | true =>
    refine (yields_take n).bind fun block b' ⟨hblock, hlen⟩ => ?_
    subst hblock
    subst hlen
    have hwhole := drains_decodeItems block.length empty
    refine ((yields_decodeItems _ sound_empty).within_whole hwhole).imp ?_
    rintro _ ps ⟨rfl, hsound, more, numbers, hmore, hspelled⟩
    obtain rfl : ps.items = more := hmore
    rw [List.append_nil]
    exact ⟨hsound, b :: numbers, .mk hb hspelled⟩

theorem Spelled.within (h : ps.Spelled numbers b) : ps.layout.Within b := by
  obtain ⟨hlength, hspelled⟩ := h
  have hbody := within_body hspelled.within
  refine Layout.Within.cons (Layout.within_singleton.2 ⟨?_, ?_⟩) hbody
  · exact Nat.le_trans hbody.2 hlength.le_max
  · exact Nat.le_trans (VarInt.size_mono hbody.2) hlength.size_le

theorem yields_decode : decode.Yields fun b ps => ps.Sound ∧ ps.layout.Within b :=
  spelled_decode.imp fun _ _ ⟨hsound, _, hspelled⟩ => ⟨hsound, hspelled.within⟩

/-- A block with properties left out is no longer. -/
theorem layoutFor_within_of_sublist {ps ps' : Properties} {v : Version} {b : Bytes}
    (hsub : List.Sublist ps'.items ps.items) (h : (ps.layoutFor v).Within b) :
    (ps'.layoutFor v).Within b := by
  cases v with
  | v311 => exact h
  | v5 =>
    obtain ⟨hfits, hlen⟩ := h
    obtain ⟨hnumber, hbody⟩ := Layout.fits_cons.1 hfits
    have hwithin : ps'.body.Within ps.body.bytes :=
      Layout.Within.sublist ⟨hbody, Nat.le_of_eq (Layout.length_bytes _).symm⟩
        (hsub.flatMap itemLayout)
    have hsize : ps'.body.size ≤ ps.body.size := Layout.length_bytes ps.body ▸ hwithin.2
    refine ⟨Layout.fits_cons.2 ⟨Nat.le_trans hsize hnumber, hwithin.1⟩, Nat.le_trans ?_ hlen⟩
    exact Nat.add_le_add (VarInt.size_mono hsize) hsize

/-- In v3.1.1 there are no properties. -/
theorem yields_decodeFor (v : Version) : (decodeFor v).Yields fun b ps =>
    ps.Sound ∧ (v = .v311 → ps = .empty) ∧ (ps.layoutFor v).Within b := by
  cases v with
  | v311 => exact yields_pure ⟨sound_empty, fun _ => rfl, Layout.within_nil⟩
  | v5 => exact yields_decode.imp fun b ps ⟨hsound, hwithin⟩ => ⟨hsound, nofun, hwithin⟩

/-- A block that is left out is read as an empty one. -/
theorem yields_decodeIfAny : decodeIfAny.Yields fun b ps =>
    ps.Sound ∧ (b = [] ∧ ps = .empty ∨ ps.layout.Within b) := by
  refine yields_atEnd fun done => ?_
  cases done with
  | true => exact yields_pure ⟨sound_empty, .inl ⟨rfl, rfl⟩⟩
  | false => exact yields_decode.imp fun b ps ⟨hsound, hwithin⟩ => ⟨hsound, .inr hwithin⟩

end Properties

end Mqtt
