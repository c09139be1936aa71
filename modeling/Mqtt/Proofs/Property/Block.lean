import Mqtt.Property.Block
import Mqtt.Proofs.Wire.Front

/-!
# Property lists and their blocks

A property list that the operations of `Properties` built (`Properties.Built`) is sound: every value
has the shape of its property, and only the repeatable properties occur more than once. A sound list
is what reading its block gives back, since it can be given again one by one.

`Properties.layout` is the layout of a block: `Properties.writes_encode` and
`Properties.reads_decode`.
-/

namespace Mqtt

open Output Decoder

/-! ## Built lists -/

namespace Properties

/-- The lists that can be built: from nothing, with `add`, the setters and user properties. -/
inductive Built : Properties → Prop
  | empty : Built .empty
  | add {ps ps' : Properties} {p : Property} {v : Value} (h : Built ps)
      (hadd : ps.add p v = .ok ps') : Built ps'
  | setSessionExpiry {ps : Properties} (seconds : UInt32) (h : Built ps) :
      Built (ps.setSessionExpiry seconds)
  | setReceiveMaximum {ps : Properties} (n : UInt16) (h : Built ps) : Built (ps.setReceiveMaximum n)
  | setMaximumPacketSize {ps : Properties} (n : UInt32) (h : Built ps) :
      Built (ps.setMaximumPacketSize n)
  | setMessageExpiry {ps : Properties} (seconds : UInt32) (h : Built ps) :
      Built (ps.setMessageExpiry seconds)
  | setReasonString {ps : Properties} (text : String) (h : Built ps) :
      Built (ps.setReasonString text)
  | addUser {ps : Properties} (key value : String) (h : Built ps) : Built (ps.addUser key value)

/-- Every value has the shape of its property, and only the repeatable ones are repeated. -/
structure Sound (ps : Properties) : Prop where
  shape : ∀ item ∈ ps.items, item.2.shape = item.1.shape
  once : ps.items.Pairwise fun item item' => item.1 = item'.1 → item.1.repeatable

variable {ps ps' : Properties} {p : Property} {v : Value}

theorem add_eq_ok_iff : ps.add p v = .ok ps' ↔
    v.shape = p.shape ∧ (p.repeatable ∨ ps.contains p = false) ∧ ps' = ⟨ps.items ++ [(p, v)]⟩ := by
  unfold add
  by_cases hshape : v.shape = p.shape
  · rw [if_neg (not_not.2 hshape)]
    by_cases honce : p.repeatable ∨ ps.contains p = false
    · rw [if_neg (by rcases honce with h | h <;> simp [h])]
      simp only [Except.ok.injEq, hshape, honce, true_and]
      exact eq_comm
    · rw [if_pos (by simpa using honce)]
      simp [honce]
  · rw [if_pos hshape]
    simp [hshape]

theorem contains_eq_false_iff : ps.contains p = false ↔ ∀ item ∈ ps.items, item.1 ≠ p := by
  simp [contains, List.any_eq_false]

theorem isEmpty_iff : ps.isEmpty ↔ ps = .empty := by
  obtain ⟨items⟩ := ps
  cases items <;> simp [isEmpty, empty]

theorem sound_empty : Sound .empty where
  shape _ h := nomatch h
  once := .nil

theorem Sound.front {items more : List (Property × Value)} (h : Sound ⟨items ++ more⟩) :
    Sound ⟨items⟩ where
  shape item hitem := h.shape item (List.mem_append_left _ hitem)
  once := (List.pairwise_append.1 h.once).1

theorem sound_concat_iff : Sound ⟨ps.items ++ [(p, v)]⟩ ↔
    Sound ps ∧ v.shape = p.shape ∧ (p.repeatable ∨ ps.contains p = false) := by
  constructor
  · intro h
    have honce := List.pairwise_append.1 h.once
    refine ⟨h.front, h.shape (p, v) (List.mem_append_right _ (List.mem_singleton.2 rfl)), ?_⟩
    by_cases hp : p.repeatable
    · exact .inl hp
    · refine .inr (contains_eq_false_iff.2 fun item hitem heq => hp ?_)
      exact heq ▸ honce.2.2 item hitem (p, v) (List.mem_singleton.2 rfl) heq
  · rintro ⟨h, hshape, honce⟩
    refine ⟨?_, List.pairwise_append.2 ⟨h.once, List.pairwise_singleton _ _, ?_⟩⟩
    · intro item hitem
      rcases List.mem_append.1 hitem with hitem | hitem
      · exact h.shape item hitem
      · rw [List.mem_singleton.1 hitem]
        exact hshape
    · intro item hitem item' hitem' heq
      rw [List.mem_singleton.1 hitem'] at heq
      rcases honce with hp | hp
      · rw [heq]
        exact hp
      · exact absurd heq (contains_eq_false_iff.1 hp item hitem)

theorem Sound.add (h : Sound ps) (hadd : ps.add p v = .ok ps') : Sound ps' := by
  obtain ⟨hshape, honce, rfl⟩ := add_eq_ok_iff.1 hadd
  exact sound_concat_iff.2 ⟨h, hshape, honce⟩

/-- Taking out every value of a property leaves room for a new one. -/
theorem Sound.set (h : Sound ps) (hshape : v.shape = p.shape) : Sound (ps.set p v) := by
  have hothers : Sound ⟨ps.items.filter (·.1 ≠ p)⟩ :=
    ⟨fun item hitem => h.shape item (List.mem_filter.1 hitem).1,
      h.once.sublist List.filter_sublist⟩
  have hgone : contains ⟨ps.items.filter (·.1 ≠ p)⟩ p = false :=
    contains_eq_false_iff.2 fun item hitem => by simpa using (List.mem_filter.1 hitem).2
  exact sound_concat_iff.2 ⟨hothers, hshape, .inr hgone⟩

theorem Built.sound (h : Built ps) : Sound ps := by
  induction h with
  | empty => exact sound_empty
  | add _ hadd ih => exact ih.add hadd
  | setSessionExpiry _ _ ih | setReceiveMaximum _ _ ih | setMaximumPacketSize _ _ ih
    | setMessageExpiry _ _ ih | setReasonString _ _ ih => exact ih.set rfl
  | addUser _ _ _ ih => exact sound_concat_iff.2 ⟨ih, rfl, .inl rfl⟩

end Properties

/-! ## Layouts -/

/-- The layout of a value. -/
def Value.layout : Value → Layout
  | .byte v => [.octets [v]]
  | .word v => [.octets (Bytes.ofWord v)]
  | .long v => [.octets (Bytes.ofLong v)]
  | .varInt v => [.number v]
  | .binary v => [.binary v]
  | .text v => [.text v]
  | .pair k v => [.text k, .text v]

theorem Value.writes_encode (v : Value) : v.encode.Writes v.layout := by
  cases v with
  | byte v => exact writes_put _
  | word v => exact writes_put _
  | long v => exact writes_put _
  | varInt v => exact writes_number v
  | binary v => exact writes_binary v
  | text v => exact writes_text v
  | pair k v => exact (writes_text k).cons (writes_text v)

theorem Value.size_layout (v : Value) : v.layout.size = v.encodedSize := by
  cases v <;> rfl

theorem Property.digits_toByte (p : Property) : VarInt.digits 3 p.toByte.toNat = [p.toByte] := by
  cases p <;> rfl

theorem Property.toByte_le (p : Property) : p.toByte.toNat ≤ VarInt.max := by
  cases p <;> decide

namespace Properties

/-- The layout of a property: the octet that identifies it, then its value. -/
def itemLayout (item : Property × Value) : Layout := .octets [item.1.toByte] :: item.2.layout

/-- The layout of a block without its length. -/
def body (ps : Properties) : Layout := ps.items.flatMap itemLayout

/-- The layout of a block. -/
def layout (ps : Properties) : Layout := .number ps.body.size :: ps.body

/-- The layout of a block in the version that has properties. -/
def layoutFor (v : Version) (ps : Properties) : Layout :=
  match v with
  | .v311 => []
  | .v5 => ps.layout

/-! ## Writing a block -/

theorem writes_encodeItem (item : Property × Value) :
    (encodeItem item).Writes (itemLayout item) := by
  have hid : VarInt.encode item.1.toByte.toNat = .put [item.1.toByte] := by
    rw [VarInt.encode, if_pos item.1.toByte_le, item.1.digits_toByte]
  rw [encodeItem, hid]
  exact (writes_put _).cons item.2.writes_encode

theorem size_body (ps : Properties) : ps.body.size = ps.bodySize := by
  obtain ⟨items⟩ := ps
  rw [body, bodySize]
  induction items with
  | nil => rfl
  | cons item items ih =>
    have hid : VarInt.size item.1.toByte.toNat = 1 := by
      rw [← VarInt.length_digits, item.1.digits_toByte]
      rfl
    rw [List.flatMap_cons, Layout.size_append, ih, itemLayout, Layout.size_cons, Value.size_layout,
      itemsSize, hid]
    rfl

theorem writes_encode (ps : Properties) : ps.encode.Writes ps.layout := by
  rw [encode, layout, ← size_body]
  exact (writes_length _ _).cons (writes_concat writes_encodeItem ps.items)

theorem writes_encodeFor (v : Version) (ps : Properties) :
    (ps.encodeFor v).Writes (ps.layoutFor v) := by
  cases v with
  | v311 => exact writes_empty
  | v5 => exact writes_encode ps

/-! ## Reading a block -/

variable {ps : Properties}

theorem reads_decodeIdentifier (p : Property) (rest : Bytes) :
    decodeIdentifier.Reads [p.toByte] rest p := by
  have hnumber := VarInt.reads_decode p.toByte_le rest
  rw [p.digits_toByte] at hnumber
  refine hnumber.last ?_
  refine Reads.require (decide_eq_true p.toByte.toNat_lt) _ ?_
  rw [UInt8.ofNat_toNat, Property.ofByte?_toByte]
  exact reads_pure p rest

theorem reads_requireWidth {p : Property} {width : Nat} {rest : Bytes} (h : width ≤ rest.length) :
    (requireWidth p width).Reads [] rest () := by
  refine (reads_has_of_le h).look ?_
  exact reads_pure () rest

theorem reads_decodeValue {p : Property} {v : Value} (hshape : v.shape = p.shape)
    (hfits : v.layout.Fits) (rest : Bytes) : (decodeValue p).Reads v.layout.bytes rest v := by
  unfold decodeValue
  rw [← hshape]
  cases v with
  | byte v => exact (reads_requireWidth (Nat.le_add_left 1 _)).look (reads_u8 v rest).bind_pure
  | word v => exact (reads_requireWidth (Nat.le_add_left 2 _)).look (reads_u16 v rest).bind_pure
  | long v => exact (reads_requireWidth (Nat.le_add_left 4 _)).look (reads_u32 v rest).bind_pure
  | varInt v =>
    rw [Value.layout, Layout.bytes_singleton]
    exact (VarInt.reads_decode (Layout.fits_singleton.1 hfits) rest).bind_pure
  | binary v =>
    rw [Value.layout, Layout.bytes_singleton]
    exact (Field.reads_binary (Layout.fits_singleton.1 hfits) rest).bind_pure
  | text v =>
    rw [Value.layout, Layout.bytes_singleton]
    exact (Field.reads_text (Layout.fits_singleton.1 hfits) rest).bind_pure
  | pair k v =>
    obtain ⟨hk, hv⟩ := Layout.fits_cons.1 hfits
    rw [Value.layout, Layout.bytes_cons, Layout.bytes_singleton]
    exact (Field.reads_text hk _).bind
      (Field.reads_text (Layout.fits_singleton.1 hv) rest).bind_pure

theorem reads_decodeItem {item : Property × Value} (hfits : (itemLayout item).Fits)
    {ps ps' : Properties} (hadd : ps.add item.1 item.2 = .ok ps') (rest : Bytes) :
    (decodeItem ps).Reads (itemLayout item).bytes rest ps' := by
  rw [itemLayout, Layout.bytes_cons]
  refine (reads_decodeIdentifier item.1 _).bind ?_
  refine (reads_decodeValue (add_eq_ok_iff.1 hadd).1 (Layout.fits_cons.1 hfits).2 _).last ?_
  rw [hadd]
  exact reads_pure ps' rest

/-- Properties are read to the end of the block and given behind those that there were. -/
theorem reads_decodeItems {fuel : Nat} {ps : Properties} {items : List (Property × Value)}
    (hsound : Sound ⟨ps.items ++ items⟩) (hfits : Layout.Fits (items.flatMap itemLayout))
    (hfuel : items.length ≤ fuel) :
    (decodeItems fuel ps).Reads (Layout.bytes (items.flatMap itemLayout)) []
      ⟨ps.items ++ items⟩ := by
  induction items generalizing fuel ps with
  | nil =>
    rw [List.append_nil]
    cases fuel with
    | zero => exact reads_pure ps []
    | succ fuel =>
      refine (reads_atEnd []).look ?_
      exact reads_pure ps []
  | cons item items ih =>
    cases fuel with
    | zero => simp at hfuel
    | succ fuel =>
      obtain ⟨hitem, hitems⟩ := Layout.fits_append.1 hfits
      have hsplit : ps.items ++ item :: items = (ps.items ++ [item]) ++ items := by
        rw [List.append_assoc, List.singleton_append]
      rw [hsplit] at hsound ⊢
      have hfirst : Sound ⟨ps.items ++ [(item.1, item.2)]⟩ := hsound.front
      have hadd : ps.add item.1 item.2 = .ok ⟨ps.items ++ [item]⟩ :=
        add_eq_ok_iff.2 ⟨(sound_concat_iff.1 hfirst).2.1, (sound_concat_iff.1 hfirst).2.2, rfl⟩
      rw [List.flatMap_cons, Layout.bytes_append]
      have hrest : (decodeItems fuel ⟨ps.items ++ [item]⟩).Reads
          (Layout.bytes (items.flatMap itemLayout)) [] ⟨(ps.items ++ [item]) ++ items⟩ :=
        ih hsound hitems (Nat.le_of_succ_le_succ hfuel)
      exact (reads_atEnd _).look ((reads_decodeItem hitem hadd _).bind hrest)

theorem length_items_le (ps : Properties) : ps.items.length ≤ ps.body.size := by
  obtain ⟨items⟩ := ps
  rw [body]
  induction items with
  | nil => exact Nat.zero_le _
  | cons item items ih =>
    have hitem : 1 ≤ (itemLayout item).size := by
      rw [itemLayout, Layout.size_cons]
      exact Nat.le_add_right 1 _
    rw [List.flatMap_cons, Layout.size_append, List.length_cons]
    dsimp only at ih
    omega

theorem reads_decode {ps : Properties} (hsound : ps.Sound) (hfits : ps.layout.Fits)
    (rest : Bytes) : decode.Reads ps.layout.bytes rest ps := by
  obtain ⟨hlength, hbody⟩ := Layout.fits_cons.1 hfits
  rw [layout, Layout.bytes_cons]
  refine (VarInt.reads_decode hlength _).bind ?_
  have hleft : ps.body.size ≤ (ps.body.bytes ++ rest).length := by
    rw [List.length_append, Layout.length_bytes]
    exact Nat.le_add_right _ _
  have htake : (take ps.body.size).Reads ps.body.bytes rest ps.body.bytes := by
    rw [← Layout.length_bytes]
    exact reads_take _ _
  have hitems : (decodeItems ps.body.size empty).Reads ps.body.bytes [] ps :=
    reads_decodeItems hsound hbody (length_items_le ps)
  exact (reads_has_of_le hleft).look (htake.last (hitems.within rest))

theorem reads_decodeFor (v : Version) {ps : Properties} (hsound : ps.Sound)
    (hempty : v = .v311 → ps = .empty) (hfits : (ps.layoutFor v).Fits) (rest : Bytes) :
    (decodeFor v).Reads (ps.layoutFor v).bytes rest ps := by
  cases v with
  | v311 =>
    rw [hempty rfl]
    exact reads_pure empty rest
  | v5 => exact reads_decode hsound hfits rest

/-- A block takes an octet or more. -/
theorem size_layout_pos (ps : Properties) : 0 < ps.layout.size := by
  have hsize : 0 < VarInt.size ps.body.size := by
    unfold VarInt.size
    split_ifs <;> decide
  rw [layout, Layout.size_cons, Part.size]
  exact Nat.lt_of_lt_of_le hsize (Nat.le_add_right _ _)

theorem reads_decodeIfAny {ps : Properties} (hsound : ps.Sound) (hfits : ps.layout.Fits) :
    decodeIfAny.Reads ps.layout.bytes [] ps := by
  refine (reads_atEnd _).look ?_
  have hne : ps.layout.bytes ≠ [] := by
    rw [← List.length_pos_iff, Layout.length_bytes]
    exact ps.size_layout_pos
  rw [List.append_nil, List.isEmpty_eq_false_iff.2 hne]
  exact reads_decode hsound hfits []

theorem reads_decodeIfAny_empty : decodeIfAny.Reads [] [] empty := by
  refine (reads_atEnd []).look ?_
  exact reads_pure empty []

end Properties

end Mqtt
