import Mqtt.Proofs.Packet.Normal
import Mqtt.Proofs.Wire.Drain

/-!
# Octets behind a packet

The length in a header is that of the body, but not every decoder looks whether the body goes on
behind what it has read. The decoders whose last part takes all that is left drain any input, and
the others a short one: `Decoder.Drains`.

`PacketType.wholeUpTo` says for each type up to which length a body is read to its end. Octets are
left over only in a longer body (`Packet.leftover_only_in_longer`), and in each type with such a
limit a body that is one octet longer is accepted (`Packet.leftover_ignored`).
-/

namespace Mqtt

open Decoder

/-! ## Bodies whose last part takes all that is left -/

theorem Field.yields_length_text : text.Yields fun b _ => 2 ≤ b.length :=
  yields_text.imp fun b s ⟨hb, _⟩ => by
    rw [hb, length_prefixed]
    exact Nat.le_add_right 2 _

theorem Publish.drains_decodeBody (flags : UInt8) (v : Version) (k : Nat) :
    (decodeBody flags v).Drains k := by
  unfold decodeBody
  split
  · exact drains_refuse _ k
  · exact drains_require fun _ => Field.yields_text.drains fun _ _ _ =>
      (yields_decodeId _).drains fun _ _ _ => (Properties.yields_decodeFor v).drains fun _ _ _ =>
      (drains_rest _).bind fun _ => drains_pure _

theorem Subscribe.drains_decodeBody (flags : UInt8) (v : Version) (k : Nat) :
    (decodeBody flags v).Drains k := by
  have hfilter : (decodeFilter v).Yields fun b _ => 0 < b.length :=
    Field.yields_length_text.bind fun b _ hb => yields_requireHas <|
      yields_u8.bind fun b' _ _ => by
        split
        · exact yields_refuse _
        · exact yields_pure (by rw [List.length_append]; omega)
  exact drains_require fun _ => drains_requireHas (yields_u16.drains fun _ _ _ =>
    drains_require fun _ => (Properties.yields_decodeFor v).drains fun _ _ _ =>
    drains_requireHas ((drains_items hfilter _).bind fun _ => drains_pure _))

theorem Unsubscribe.drains_decodeBody (flags : UInt8) (v : Version) (k : Nat) :
    (decodeBody flags v).Drains k := by
  have hfilter : Field.text.Yields fun b _ => 0 < b.length :=
    Field.yields_length_text.imp fun _ _ hb => Nat.lt_of_lt_of_le Nat.two_pos hb
  exact drains_require fun _ => drains_requireHas (yields_u16.drains fun _ _ _ =>
    (Properties.yields_decodeFor v).drains fun _ _ _ => (drains_items hfilter _).bind fun _ =>
    drains_require fun _ => drains_pure _)

namespace FilterAck

theorem drains_reasons (v : Version) (k : Nat) : (items (decodeReason v)).Drains k :=
  drains_items ((yields_decodeReason v).imp fun b r ⟨hb, _⟩ => by rw [hb]; exact Nat.one_pos) k

theorem drains_decodeSubAck (v : Version) (k : Nat) : (decodeSubAck v).Drains k :=
  drains_requireHas (yields_u16.drains fun _ _ _ =>
    (Properties.yields_decodeFor v).drains fun _ _ _ => (drains_reasons v _).bind fun _ =>
    drains_require fun _ => drains_pure _)

theorem drains_decodeUnsubAck (k : Nat) : (decodeUnsubAck .v5).Drains k :=
  drains_requireHas (yields_u16.drains fun _ _ _ =>
    Properties.yields_decode.drains fun _ _ _ => (drains_reasons .v5 _).bind fun _ =>
    drains_pure _)

end FilterAck

/-! ## Bodies that end by themselves -/

/-- The identifier is all that is read. -/
theorem FilterAck.drains_decodeUnsubAck_v311 : (decodeUnsubAck .v311).Drains 2 :=
  drains_requireHas (yields_u16.drains fun b id hb => by subst hb; exact drains_pure _)

namespace Properties

theorem yields_length_decode : decode.Yields fun b _ => 1 ≤ b.length :=
  yields_decode.imp fun _ ps ⟨_, hwithin⟩ => Nat.lt_of_lt_of_le ps.size_layout_pos hwithin.2

theorem drains_decode : decode.Drains 1 := by
  rw [← bind_pure decode]
  exact yields_length_decode.drains fun b ps hb => (drains_pure ps).mono (by omega)

theorem drains_decodeIfAny : decodeIfAny.Drains 1 :=
  drains_atEnd (drains_pure _) drains_decode

end Properties

theorem Connect.drains_decodeBody : decodeBody.Drains 12 := by
  refine Field.yields_text.drains fun b name ⟨hb, _⟩ => drains_require fun hname => ?_
  obtain rfl : name = protocolName := by simpa using hname
  rw [hb]
  refine drains_requireHas (yields_u8.drains fun _ _ hlevel => ?_)
  subst hlevel
  split
  · exact drains_refuse _ _
  · refine yields_u8.drains fun _ flags hflags => drains_require fun _ =>
      yields_u16.drains fun _ keepAlive hkeep => (Properties.yields_decodeFor _).drains fun _ _ _ =>
      Field.yields_length_text.drains fun _ client hclient =>
      ((Will.yields_decode _ _ _).optionally _).drains fun _ _ _ =>
      (Field.yields_text.optionally _).drains fun _ _ _ =>
      (Field.yields_binary.optionally _).drains fun _ _ _ => (drains_pure _).mono ?_
    subst hflags
    subst hkeep
    -- the name takes six octets, the level, the flags and the keep-alive four, the client two
    have hleft : 12 - (Field.prefixed (Utf8.encode protocolName)).length - 4 = 2 := rfl
    simp only [List.length_singleton, Bytes.length_ofWord]
    omega

namespace ConnAck

theorem drains_decodeOutcome_v311 : (decodeOutcome .v311).Drains 1 := by
  refine yields_u8.drains fun _ code hb => ?_
  subst hb
  dsimp only
  split
  · exact drains_refuse _ _
  · exact drains_pure _

theorem drains_decodeOutcome_v5 : (decodeOutcome .v5).Drains 2 := by
  refine yields_u8.drains fun _ code hb => ?_
  subst hb
  dsimp only
  split
  · exact drains_refuse _ _
  · exact Properties.drains_decodeIfAny.bind fun _ => drains_pure _

theorem drains_decodeBody {v : Version} {k : Nat} (h : (decodeOutcome v).Drains k) :
    (decodeBody v).Drains (k + 1) :=
  drains_requireHas (yields_u8.drains fun b flags hb => drains_require fun _ =>
    (h.mono (by rw [hb]; exact Nat.le_refl k)).bind fun _ => drains_require fun _ => drains_pure _)

end ConnAck

/-- The short forms are read to their end since they have the announced length. -/
theorem Ack.drains_decodeBody (kind : AckKind) (flags : UInt8) (length : Nat) :
    (decodeBody kind flags length).Drains (min length 4) := by
  refine drains_require fun _ => drains_has fun enough => drains_require fun henough =>
    yields_u16.drains fun b id hb => drains_require fun _ => ?_
  subst hb
  rw [Bytes.length_ofWord]
  split
  · exact (drains_pure _).mono (by omega)
  · refine (yields_decodeReason kind).drains fun b reason ⟨⟨code, hcode⟩, _⟩ => ?_
    subst hcode
    rw [List.length_singleton]
    split
    · exact (Properties.drains_decode.mono (by omega)).bind fun _ => drains_pure _
    · exact (drains_pure _).mono (by omega)

theorem Disconnect.drains_decodeBody_v5 : (decodeBody .v5).Drains 2 := by
  refine drains_atEnd (drains_pure _) (yields_u8.drains fun b code hb => ?_)
  subst hb
  split
  · exact drains_refuse _ _
  · exact Properties.drains_decodeIfAny.bind fun _ => drains_pure _

/-! ## Frames -/

/-- The length up to which a body of the type is read to its end. There is none where the last part,
a payload or a list, takes all that is left. -/
def PacketType.wholeUpTo : PacketType → Version → Option Nat
  | .connect, _ => some 12
  | .connAck, .v311 => some 2
  | .connAck, .v5 => some 3
  | .pubAck, _ | .pubRec, _ | .pubRel, _ | .pubComp, _ => some 4
  | .unsubAck, .v311 => some 2
  | .pingReq, _ | .pingResp, _ => some 0
  | .disconnect, .v311 => some 0
  | .disconnect, .v5 => some 2
  | .publish, _ | .subscribe, _ | .subAck, _ | .unsubscribe, _ | .unsubAck, .v5 | .auth, _ => none

namespace Packet

variable {v : Version} {frame : Bytes} {p : Packet}

theorem drains_decodeBody {h : Header}
    (hshort : ∀ k, h.packet.wholeUpTo v = some k → h.length ≤ k) :
    (decodeBody h v).Drains h.length := by
  obtain ⟨t, flags, n⟩ := h
  cases t with
  | connect => exact (Connect.drains_decodeBody.mono (hshort 12 rfl)).map
  | connAck =>
    cases v with
    | v311 =>
      exact ((ConnAck.drains_decodeBody ConnAck.drains_decodeOutcome_v311).mono (hshort 2 rfl)).map
    | v5 =>
      exact ((ConnAck.drains_decodeBody ConnAck.drains_decodeOutcome_v5).mono (hshort 3 rfl)).map
  | publish => exact (Publish.drains_decodeBody flags v n).map
  | pubAck | pubRec | pubRel | pubComp =>
    exact ((Ack.drains_decodeBody _ flags n).mono (Nat.le_min.2 ⟨Nat.le_refl n, hshort 4 rfl⟩)).map
  | subscribe => exact (Subscribe.drains_decodeBody flags v n).map
  | subAck => exact (FilterAck.drains_decodeSubAck v n).map
  | unsubscribe => exact (Unsubscribe.drains_decodeBody flags v n).map
  | unsubAck =>
    cases v with
    | v311 => exact (FilterAck.drains_decodeUnsubAck_v311.mono (hshort 2 rfl)).map
    | v5 => exact (FilterAck.drains_decodeUnsubAck n).map
  | pingReq | pingResp => exact (drains_pure _).mono (hshort 0 rfl)
  | disconnect =>
    cases v with
    | v311 => exact ((drains_pure _).mono (hshort 0 rfl)).map
    | v5 => exact (Disconnect.drains_decodeBody_v5.mono (hshort 2 rfl)).map
  | auth => exact drains_refuse _ n

/-- The packet in a frame, and the octets of the body that were not looked at. -/
def decodeFrameLeaving (b : Bytes) (v : Version) : Except Error (Packet × Bytes) := do
  match ← Header.peek? b with
  | none => .error (.malformed .truncatedHeader)
  | some (h, n) =>
    let body := b.drop n
    if body.length = h.length then
      ((decodeBody h v).run (.ofBytes body)).map fun r => (r.1, r.2.bytes)
    else .error (.malformed (.lengthMismatch h.length body.length))

/-- A frame that is accepted is read to the end of its body, or the body is longer than the bodies
of its type that are sure to be read to their end. -/
theorem leftover_only_in_longer (h : decodeFrame frame v = .ok p) :
    ∃ hd n rest, Header.peek? frame = .ok (some (hd, n)) ∧
      decodeFrameLeaving frame v = .ok (p, rest) ∧
      (rest = [] ∨ ∃ k, hd.packet.wholeUpTo v = some k ∧ k < hd.length) := by
  obtain ⟨hd, n, s, hpeek, hlen, hbody⟩ := decodeFrame_inv h
  refine ⟨hd, n, s.bytes, hpeek, ?_, ?_⟩
  · simp only [decodeFrameLeaving, hpeek, bind, Except.bind, if_pos hlen, hbody, Except.map]
  · by_cases hshort : ∀ k, hd.packet.wholeUpTo v = some k → hd.length ≤ k
    · left
      have hremaining : (Segments.ofBytes (frame.drop n)).remaining ≤ hd.length := by
        rw [Segments.remaining_eq_length_bytes, Segments.bytes_ofBytes]
        exact Nat.le_of_eq hlen
      have hnone := drains_decodeBody hshort _ s p hremaining hbody
      rwa [Segments.remaining_eq_length_bytes, List.length_eq_zero_iff] at hnone
    · right
      simpa using hshort

/-- A PUBACK that spells out everything ends with its body. -/
theorem leftover_only_in_longer_pubAck :
    decodeFrame [0x40, 4, 0, 1, 0, 0] .v5 = .ok (.ack .pubAck (.ofReason 1 .success)) ∧
      ∃ hd n rest, Header.peek? [0x40, 4, 0, 1, 0, 0] = .ok (some (hd, n)) ∧
        decodeFrameLeaving [0x40, 4, 0, 1, 0, 0] .v5 =
          .ok (.ack .pubAck (.ofReason 1 .success), rest) ∧
        (rest = [] ∨ ∃ k, hd.packet.wholeUpTo .v5 = some k ∧ k < hd.length) := by
  have hread : decodeFrame [0x40, 4, 0, 1, 0, 0] .v5 =
      .ok (.ack .pubAck (.ofReason 1 .success)) := by decide
  exact ⟨hread, leftover_only_in_longer hread⟩

/-- A frame of each type and version that has a limit, with a body that is one octet longer. -/
def overlong : List (Bytes × Version) :=
  [([0x10, 13, 0, 4, 77, 81, 84, 84, 4, 0, 0, 0, 0, 0, 0], .v311),
    ([0x20, 3, 0, 0, 0], .v311), ([0x20, 4, 0, 0, 0, 0], .v5),
    ([0x40, 5, 0, 1, 0, 0, 0], .v311), ([0x50, 5, 0, 1, 0, 0, 0], .v311),
    ([0x62, 5, 0, 1, 0, 0, 0], .v311), ([0x70, 5, 0, 1, 0, 0, 0], .v311),
    ([0xB0, 3, 0, 1, 0], .v311), ([0xC0, 1, 0], .v311), ([0xD0, 1, 0], .v311),
    ([0xE0, 1, 0], .v311), ([0xE0, 3, 0, 0, 0], .v5)]

/-- Each of these frames is accepted, and its last octet is not looked at: a CONNACK may go on behind
its properties. -/
theorem leftover_ignored :
    decodeFrame [0x20, 4, 0, 0, 0, 0] .v5 = .ok (.connAck ⟨false, .success, .empty, .v5⟩) ∧
    decodeFrameLeaving [0x20, 4, 0, 0, 0, 0] .v5 =
      .ok (.connAck ⟨false, .success, .empty, .v5⟩, [0]) ∧
    ∀ r ∈ overlong, (decodeFrame r.1 r.2).isOk ∧ (decodeFrameLeaving r.1 r.2).map (·.2) = .ok [0] := by
  decide

end Packet

end Mqtt
