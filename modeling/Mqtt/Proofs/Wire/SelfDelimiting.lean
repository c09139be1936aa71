import Mqtt.Proofs.Wire.Layout
import Mqtt.Proofs.Wire.Reading
import Mqtt.Proofs.Wire.Spelling

/-!
# Numbers delimit themselves

Where a number ends is seen from its own octets: what stands behind it does not matter
(`VarInt.peek?_congr`), and it is not found before its last octet has arrived
(`VarInt.peek?_of_shorter`). So a number that was written is found again in front of anything, and
only as a whole; and whatever is found can be written, in no more octets than it was spelled in
(`VarInt.self_delimiting`).
-/

namespace Mqtt

namespace VarInt

variable {v n : Nat} {b : Bytes}

theorem encode_of_le (h : v ≤ max) : encode v = .put (digits 3 v) := if_pos h

theorem encode_of_lt (h : max < v) : encode v = .fail (.malformed (.varIntTooLarge v)) :=
  if_neg (Nat.not_le_of_lt h)

/-- What is written for a number spells it. -/
theorem spells_digits (h : v ≤ max) : Spells 4 (digits 3 v) v := by
  have hscan := peek?_eq_some_iff.1 (peek?_digits h [])
  simpa using spells_of_scan hscan

/-- A number is found by its own octets, whatever stands behind them. -/
theorem peek?_congr {c : Bytes} (h : peek? b = .ok (some (v, n))) (hc : c.take n = b.take n) :
    peek? c = .ok (some (v, n)) := by
  rw [← List.take_append_drop n c, hc]
  exact peek?_take_append h (c.drop n)

/-- A number is not found before its last octet has arrived. -/
theorem peek?_of_shorter {p : Bytes} (h : peek? b = .ok (some (v, n))) (hp : p <+: b)
    (hlt : p.length < n) : peek? p = .ok none := by
  obtain ⟨c, rfl⟩ := hp
  by_contra hfound
  rw [peek?_append hfound] at h
  have hbounds := scan_bounds (peek?_eq_some_iff.1 h)
  omega

/-- A number that can be written takes as many octets as `size` says; it is found in front of
anything, and on no strict prefix of its octets. One that is too large writes nothing. A number that
is found takes one to four octets, can be written in no more, and depends on no octet behind them.
Octets that are refused stay refused whatever follows. -/
theorem self_delimiting :
    (∀ v, v ≤ max → ∃ e, encode v = .put e ∧ e.length = size v ∧ Spells 4 e v ∧
        (∀ r, peek? (e ++ r) = .ok (some (v, e.length))) ∧
        ∀ p, p <+: e → p ≠ e → peek? p = .ok none) ∧
      (∀ v, max < v → encode v = .fail (.malformed (.varIntTooLarge v))) ∧
      (∀ b v n, peek? b = .ok (some (v, n)) → 1 ≤ n ∧ n ≤ 4 ∧ v ≤ max ∧ size v ≤ n ∧
        Spells 4 (b.take n) v ∧ ∀ c, c.take n = b.take n → peek? c = .ok (some (v, n))) ∧
      ∀ b e, peek? b = .error e → ∀ c, peek? (b ++ c) = .error e := by
  refine ⟨fun v hv => ?_, fun v => encode_of_lt, fun b v n hfound => ?_, fun b e herror c => ?_⟩
  · have hdigits := peek?_digits hv
    refine ⟨digits 3 v, encode_of_le hv, length_digits v, spells_digits hv, hdigits, ?_⟩
    intro p hp hne
    have hlt : p.length < (digits 3 v).length :=
      Nat.lt_of_le_of_ne hp.length_le fun hlen => hne (hp.eq_of_length hlen)
    exact peek?_of_shorter (hdigits []) (hp.trans (List.prefix_append _ _)) hlt
  · have hscan := peek?_eq_some_iff.1 hfound
    obtain ⟨hpos, hle, hlen⟩ := scan_bounds hscan
    have hspells := spells_of_scan hscan
    have hsize := hspells.size_le
    rw [List.length_take_of_le hlen] at hsize
    exact ⟨hpos, hle, scan_le_max hscan, hsize, hspells, fun c => peek?_congr hfound⟩
  · rw [peek?_append (by simp [herror]), herror]

/-- At the boundary between two and three octets; and a number in more octets than it needs, and
one that does not end. -/
theorem self_delimiting_boundary :
    (16384 ≤ max ∧ encode 16384 = .put [0x80, 0x80, 1] ∧
        peek? ([0x80, 0x80, 1] ++ [0xff]) = .ok (some (16384, 3)) ∧
        [0x80, 0x80] <+: [0x80, 0x80, (1 : UInt8)] ∧ peek? [0x80, 0x80] = .ok none) ∧
      (max < 268435456 ∧ encode 268435456 = .fail (.malformed (.varIntTooLarge 268435456))) ∧
      (peek? [0xff, 0, 9] = .ok (some (127, 2)) ∧ size 127 ≤ 2 ∧
        peek? [0xff, 0] = .ok (some (127, 2))) ∧
      peek? [0x80, 0x80, 0x80, 0x80] = .error (.malformed .varIntTooLong) ∧
        peek? ([0x80, 0x80, 0x80, 0x80] ++ [1]) = .error (.malformed .varIntTooLong) := by
  obtain ⟨hwritten, hlarge, hfound, hrefused⟩ := self_delimiting
  have hencode : encode 16384 = .put [0x80, 0x80, 1] := by decide
  have hpadded : peek? [0xff, 0, 9] = .ok (some (127, 2)) := by decide
  have hendless : peek? [0x80, 0x80, 0x80, 0x80] = .error (.malformed .varIntTooLong) := by decide
  have hprefix : [0x80, 0x80] <+: [0x80, 0x80, (1 : UInt8)] := ⟨[1], rfl⟩
  obtain ⟨e, he, -, -, hfront, hshorter⟩ := hwritten 16384 (by decide)
  obtain rfl : [0x80, 0x80, 1] = e := congrArg Output.bytes (hencode.symm.trans he)
  obtain ⟨-, -, -, hsize, -, hown⟩ := hfound [0xff, 0, 9] 127 2 hpadded
  exact ⟨⟨by decide, hencode, hfront [0xff], hprefix, hshorter _ hprefix (by decide)⟩,
    ⟨by decide, hlarge 268435456 (by decide)⟩, ⟨hpadded, hsize, hown [0xff, 0] rfl⟩, hendless,
    hrefused _ _ hendless [1]⟩

end VarInt

end Mqtt
