import Mqtt.Proofs.Property.Guard
import Mqtt.Proofs.Property.Yield

/-!
# Property blocks there and back

A list that was built is read back from its block, whatever stands behind the block and however the
input is cut: `Properties.built_read_back`.

The other way round, the properties that were read from a block can be written again, but the block
need not come out as it was. It does so exactly if no number in it was padded, be it its length, an
identifier or a subscription identifier: `Properties.reencoded_iff`.
-/

namespace Mqtt

open Decoder

/-- A writer succeeds where its layout fits. -/
theorem Output.Writes.eq_put_iff {o : Output} {l : Layout} {b : Bytes} (h : o.Writes l) :
    o = .put b ↔ l.Fits ∧ l.bytes = b := by
  by_cases hfits : l.Fits
  · rw [h.written hfits, and_iff_right hfits]
    exact ⟨fun hput => (Output.mk.inj hput).1, fun hb => hb ▸ rfl⟩
  · obtain ⟨e, he⟩ := h.refused hfits
    refine iff_of_false (fun hput => ?_) (fun hb => hfits hb.1)
    rw [hput] at he
    cases he

theorem Property.repeatable_iff (p : Property) :
    p.repeatable ↔ p = .userProperty ∨ p = .subscriptionIdentifier := by
  cases p <;> decide

namespace Properties

variable {ps : Properties}

/-! ## Written and read -/

theorem encodedSize_eq_size (ps : Properties) : ps.encodedSize = ps.layout.size := by
  rw [encodedSize, ← size_body]
  rfl

/-- A property that may not be repeated has one value at most. -/
theorem Sound.length_getAll_le (h : ps.Sound) {p : Property} (hp : ¬p.repeatable) :
    (ps.getAll p).length ≤ 1 := by
  rw [getAll, List.length_map]
  by_contra hmany
  replace hmany : 1 < (ps.items.filter (·.1 = p)).length := Nat.lt_of_not_le hmany
  have hsame : ∀ item ∈ ps.items.filter (·.1 = p), item.1 = p := fun item hitem => by
    simpa using List.of_mem_filter hitem
  have hpos := Nat.zero_lt_of_lt hmany
  have hfirst := hsame _ (List.getElem_mem hpos)
  have hsecond := hsame _ (List.getElem_mem hmany)
  have honce := List.pairwise_iff_getElem.1 (h.once.filter (·.1 = p)) 0 1 hpos hmany Nat.one_pos
  exact hp (hfirst ▸ honce (hfirst.trans hsecond.symm))

/-- However the input is cut and whatever stands behind the block, a sound list is read back. -/
theorem Sound.run_decode {s : Segments} {rest : Bytes} (h : ps.Sound) (hfits : ps.layout.Fits)
    (hs : s.bytes = ps.layout.bytes ++ rest) :
    ∃ s', decode.run s = .ok (ps, s') ∧ s'.bytes = rest := by
  have hread := reads_decode h hfits rest
  have hagree := guarded_decode.blind s (.ofBytes (ps.layout.bytes ++ rest))
    (by rw [hs, Segments.bytes_ofBytes])
  rw [hread] at hagree
  generalize decode.run s = r at hagree
  cases hagree with
  | ok _ hrest => exact ⟨_, rfl, by rw [hrest, Segments.bytes_ofBytes]⟩

/-- In a list that was built, every value has the shape of its property, and only user properties
and subscription identifiers are repeated. If its block can be written, the block is as long as was
counted, and the list is read back from the front of any input that begins with it. -/
theorem built_read_back (h : ps.Built) :
    (∀ item ∈ ps.items, item.2.shape = item.1.shape) ∧
    (∀ p, p ≠ .userProperty → p ≠ .subscriptionIdentifier → (ps.getAll p).length ≤ 1) ∧
    ∀ b, ps.encode = .put b → b.length = ps.encodedSize ∧
      ∀ s rest, s.bytes = b ++ rest → ∃ s', decode.run s = .ok (ps, s') ∧ s'.bytes = rest := by
  have hsound := h.sound
  refine ⟨hsound.shape, fun p huser hsubscription => hsound.length_getAll_le ?_, fun b hb => ?_⟩
  · rw [p.repeatable_iff]
    exact not_or.2 ⟨huser, hsubscription⟩
  · obtain ⟨hfits, rfl⟩ := (writes_encode ps).eq_put_iff.1 hb
    refine ⟨?_, fun s rest hs => hsound.run_decode hfits hs⟩
    rw [Layout.length_bytes, encodedSize_eq_size]

/-- A list with both repeatable properties and one that was set, in a buffer of three pieces. -/
theorem built_read_back_repeated :
    ∃ ps : Properties, ps.Built ∧ (ps.getAll .subscriptionIdentifier).length = 2 ∧
      ps.encode = .put [15, 0x26, 0, 1, 107, 0, 1, 118, 0x21, 0, 10, 0x0B, 0x80, 1, 0x0B, 5] ∧
      ∃ s', decode.run ⟨[[15, 0x26, 0, 1, 107, 0, 1, 118, 0x21], [0],
          [10, 0x0B, 0x80, 1, 0x0B, 5, 9, 9]]⟩ = .ok (ps, s') ∧ s'.bytes = [9, 9] := by
  have hfirst : Built ((empty.addUser "k" "v").setReceiveMaximum 10) :=
    .setReceiveMaximum 10 (.addUser "k" "v" .empty)
  have hsecond := Built.add (p := .subscriptionIdentifier) (v := .varInt 128) hfirst rfl
  have hbuilt := Built.add (p := .subscriptionIdentifier) (v := .varInt 5) hsecond rfl
  have hread := (built_read_back hbuilt).2.2
    [15, 0x26, 0, 1, 107, 0, 1, 118, 0x21, 0, 10, 0x0B, 0x80, 1, 0x0B, 5] rfl
  exact ⟨_, hbuilt, rfl, rfl, hread.2 _ [9, 9] rfl⟩

/-! ## Read and written -/

variable {numbers : List Bytes} {b : Bytes}

/-- The block is written as it was unless the spelling of a number is padded. -/
theorem Spelled.bytes_layout_eq_iff (h : ps.Spelled numbers b) :
    ps.layout.bytes = b ↔ ∀ n ∈ numbers, ¬VarInt.Padded n := by
  obtain ⟨hlength, hbody⟩ := h
  rename_i length numbers body
  have hwithin := within_body hbody.within
  have hsize : (VarInt.digits 3 ps.body.size).length ≤ length.length := by
    rw [VarInt.length_digits]
    exact Nat.le_trans (VarInt.size_mono hwithin.2) hlength.size_le
  have hbytes : ps.body.bytes.length ≤ body.length := by
    rw [Layout.length_bytes]
    exact hwithin.2
  have hbody' := hbody.bytes_eq_iff
  rw [bytes_spelling] at hbody'
  rw [layout, Layout.bytes_cons, Part.bytes, Bytes.append_eq_append_iff_of_le hsize hbytes,
    hbody', List.forall_mem_cons]
  refine and_congr_left fun hall => ?_
  -- the body is as long as it was
  rw [← Layout.length_bytes, hbody'.2 hall]
  exact hlength.digits_eq_iff

/-- What was read from a block can be written again, in no more octets. It is the same block exactly
if no number in it was padded. -/
theorem reencoded_iff {s s' : Segments} (h : decode.run s = .ok (ps, s')) :
    ∃ b b' numbers, s.bytes = b ++ s'.bytes ∧ ps.Spelled numbers b ∧ ps.encode = .put b' ∧
      b'.length ≤ b.length ∧ (b' = b ↔ ∀ n ∈ numbers, ¬VarInt.Padded n) := by
  obtain ⟨b, hs, -, numbers, hspelled⟩ := spelled_decode s s' ps h
  have hwithin := hspelled.within
  refine ⟨b, ps.layout.bytes, numbers, hs, hspelled, (writes_encode ps).written hwithin.1, ?_,
    hspelled.bytes_layout_eq_iff⟩
  rw [Layout.length_bytes]
  exact hwithin.2

/-- A block with a subscription identifier of two octets, in front of something else. -/
theorem reencoded_iff_subscription :
    decode.run (.ofBytes [3, 0x0B, 0x80, 1, 7]) =
      .ok (⟨[(.subscriptionIdentifier, .varInt 128)]⟩, .ofBytes [7]) ∧
    ∃ b b' numbers, [3, 0x0B, 0x80, 1, 7] = b ++ [7] ∧
      Spelled ⟨[(.subscriptionIdentifier, .varInt 128)]⟩ numbers b ∧
      encode ⟨[(.subscriptionIdentifier, .varInt 128)]⟩ = .put b' ∧
      b'.length ≤ b.length ∧ (b' = b ↔ ∀ n ∈ numbers, ¬VarInt.Padded n) := by
  have hread : decode.run (.ofBytes [3, 0x0B, 0x80, 1, 7]) =
      .ok (⟨[(.subscriptionIdentifier, .varInt 128)]⟩, .ofBytes [7]) := by decide
  exact ⟨hread, reencoded_iff hread⟩

/-- Blocks with a number that is padded with an octet, and the same without that octet: the length of
the block, an identifier and a subscription identifier. -/
def paddedBlocks : List (Bytes × Bytes) :=
  [([0x80, 0], [0]), ([3, 0x97, 0, 1], [2, 0x17, 1]), ([3, 0x0B, 0x81, 0], [2, 0x0B, 1])]

/-- Each of these blocks is read to its end, and what was read is written as another block: a
subscription identifier in two octets comes out in one. -/
theorem padding_lost :
    decode.run (.ofBytes [3, 0x0B, 0x81, 0]) =
      .ok (⟨[(.subscriptionIdentifier, .varInt 1)]⟩, .ofBytes []) ∧
    encode ⟨[(.subscriptionIdentifier, .varInt 1)]⟩ = .put [2, 0x0B, 1] ∧
    ∀ r ∈ paddedBlocks, r.2 ≠ r.1 ∧
      (decode.run (.ofBytes r.1)).map (fun a => (a.1.encode, a.2.bytes)) = .ok (.put r.2, []) := by
  decide

end Properties

end Mqtt
