import Mqtt.Proofs.Packet.Normal

/-!
# The identifier zero

No exchange has the identifier zero. The decoders of PUBLISH, of the four acknowledgments and of
SUBSCRIBE refuse it; those of SUBACK, UNSUBSCRIBE and UNSUBACK take any identifier. So a frame with
the identifier zero is accepted in these three cases, and in no other: `Packet.zero_id_iff`.
-/

namespace Mqtt

open Decoder

theorem Decoder.firstWord_append {b : Bytes} {w : UInt16} (h : firstWord b = some w) (c : Bytes) :
    firstWord (b ++ c) = some w := by
  match b, h with
  | _ :: _ :: _, h => exact h

/-! ## Identifiers that are not looked at -/

theorem FilterAck.yields_idSubAck (v : Version) :
    (decodeSubAck v).Yields fun b p => firstWord b = some p.id := by
  refine yields_requireHas (yields_u16.bind fun b id hb => ?_)
  subst hb
  exact (Properties.yields_decodeFor v).bind fun _ _ _ => (yields_reasons v).bind fun _ _ _ =>
    yields_require fun _ => yields_pure (firstWord_ofWord id _)

theorem FilterAck.yields_idUnsubAck (v : Version) :
    (decodeUnsubAck v).Yields fun b p => firstWord b = some p.id := by
  refine yields_requireHas (yields_u16.bind fun b id hb => ?_)
  subst hb
  cases v with
  | v311 => exact yields_pure (firstWord_ofWord id _)
  | v5 =>
    exact Properties.yields_decode.bind fun _ _ _ => (yields_reasons .v5).bind_pure fun _ _ _ =>
      firstWord_ofWord id _

theorem Unsubscribe.yields_id (flags : UInt8) (v : Version) :
    (decodeBody flags v).Yields fun b p => firstWord b = some p.id := by
  refine yields_require fun _ => yields_requireHas (yields_u16.bind fun b id hb => ?_)
  subst hb
  exact (Properties.yields_decodeFor v).bind fun _ _ _ => within_text.items.bind fun _ _ _ =>
    yields_require fun _ => yields_pure (firstWord_ofWord id _)

namespace Packet

/-- The packets whose identifier may be any. -/
def anyId : List PacketType := [.subAck, .unsubscribe, .unsubAck]

variable {v : Version} {b frame : Bytes} {p : Packet}

/-- The identifier of the others is not zero when they can be said again. -/
theorem Restates.id?_ne_zero (h : p.Restates v b) (ht : p.packetType ∉ anyId) :
    p.id? ≠ some 0 := by
  intro hid
  obtain hsaid | ⟨kind, a, rfl, ha⟩ := h.said
  · cases p with
    | publish p =>
      have hp : p.id = some 0 := hid
      by_cases hq : p.qos = .atMostOnce
      · rw [(Publish.Sayable.once hsaid hq).1] at hp
        cases hp
      · obtain ⟨id, hne, hsome⟩ := Publish.Sayable.tracked hsaid hq
        rw [hp] at hsome
        exact hne (Option.some.inj hsome).symm
    | ack kind a => exact Ack.Sayable.id hsaid (Option.some.inj hid)
    | subscribe p => exact Subscribe.Sayable.id hsaid (Option.some.inj hid)
    | subAck p | unsubscribe p | unsubAck p => exact ht (by simp [anyId, packetType])
    | connect p | connAck p | disconnect p => cases hid
    | pingReq | pingResp => cases hid
  · exact ha.id (Option.some.inj hid)

/-- An identifier that may be any is the first word of the body. -/
theorem id?_of_decodeBody {h : Header} {s s' : Segments}
    (hbody : (decodeBody h v).run s = .ok (p, s')) (ht : p.packetType ∈ anyId) :
    p.id? = firstWord s.bytes := by
  have hfront : ∀ {α : Type} {d : Decoder α} {id : α → UInt16} {a : α},
      (d.Yields fun b a => firstWord b = some (id a)) → d.run s = .ok (a, s') →
        some (id a) = firstWord s.bytes := by
    intro α d id a hd hrun
    obtain ⟨b, hb, hid⟩ := hd s s' a hrun
    rw [hb, firstWord_append hid]
  rw [packetType_of_decodeBody hbody] at ht
  unfold decodeBody at hbody
  simp only [anyId, List.mem_cons, List.not_mem_nil, or_false] at ht
  rcases ht with ht | ht | ht <;> rw [ht] at hbody <;>
    obtain ⟨q, rfl, hq⟩ := map_eq_ok_iff.1 hbody
  · exact hfront (FilterAck.yields_idSubAck v) hq
  · exact hfront (Unsubscribe.yields_id h.flags v) hq
  · exact hfront (FilterAck.yields_idUnsubAck v) hq

/-- A frame that is accepted has the identifier zero exactly if it is a SUBACK, an UNSUBSCRIBE or an
UNSUBACK whose body begins with two zero octets. In every other packet zero is refused. -/
theorem zero_id_iff (h : decodeFrame frame v = .ok p) :
    ∃ hd n, Header.peek? frame = .ok (some (hd, n)) ∧ p.packetType = hd.packet ∧
      (p.id? = some 0 ↔ hd.packet ∈ anyId ∧ firstWord (frame.drop n) = some 0) := by
  obtain ⟨hd, n, s, hpeek, -, hbody⟩ := decodeFrame_inv h
  have htype := packetType_of_decodeBody hbody
  refine ⟨hd, n, hpeek, htype, ?_⟩
  rw [← htype]
  constructor
  · intro hid
    have ht : p.packetType ∈ anyId := by
      by_contra ht
      obtain ⟨b, -, hrestates⟩ := restates_of_decodeFrame h
      exact hrestates.id?_ne_zero ht hid
    have hword := id?_of_decodeBody hbody ht
    rw [Segments.bytes_ofBytes] at hword
    exact ⟨ht, hword ▸ hid⟩
  · rintro ⟨ht, hzero⟩
    have hword := id?_of_decodeBody hbody ht
    rw [Segments.bytes_ofBytes] at hword
    exact hword.trans hzero

/-- A SUBACK for the identifier zero. -/
theorem zero_id_iff_subAck :
    decodeFrame [0x90, 3, 0, 0, 0] .v311 = .ok (.subAck ⟨0, [.success], .empty, .v311⟩) ∧
      ∃ hd n, Header.peek? [0x90, 3, 0, 0, 0] = .ok (some (hd, n)) ∧
        (Packet.subAck ⟨0, [.success], .empty, .v311⟩).packetType = hd.packet ∧
        ((Packet.subAck ⟨0, [.success], .empty, .v311⟩).id? = some 0 ↔
          hd.packet ∈ anyId ∧ firstWord ([0x90, 3, 0, 0, 0].drop n) = some 0) := by
  have hread : decodeFrame [0x90, 3, 0, 0, 0] .v311 =
      .ok (.subAck ⟨0, [.success], .empty, .v311⟩) := by decide
  exact ⟨hread, zero_id_iff hread⟩

/-- The six ways in which the identifier zero is accepted: a SUBACK, an UNSUBSCRIBE of the empty
filter and an UNSUBACK, in either version. A SUBSCRIBE of the same filter is refused. -/
theorem zero_id_accepted :
    (decodeFrame [0x90, 3, 0, 0, 0] .v311).map id? = .ok (some 0) ∧
    (decodeFrame [0x90, 4, 0, 0, 0, 0] .v5).map id? = .ok (some 0) ∧
    (decodeFrame [0xA2, 4, 0, 0, 0, 0] .v311).map id? = .ok (some 0) ∧
    (decodeFrame [0xA2, 5, 0, 0, 0, 0, 0] .v5).map id? = .ok (some 0) ∧
    (decodeFrame [0xB0, 2, 0, 0] .v311).map id? = .ok (some 0) ∧
    (decodeFrame [0xB0, 3, 0, 0, 0] .v5).map id? = .ok (some 0) ∧
    decodeFrame [0x82, 5, 0, 0, 0, 0, 0] .v311 =
      .error (.malformed (.zeroIdentifier .subscribe)) := by
  decide

end Packet

end Mqtt
