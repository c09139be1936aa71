import Mqtt.Proofs.Packet.Stream
import Mqtt.Proofs.Property.Guard

/-!
# Packets from untrusted input

The decoders of headers and packet bodies are `Guarded`, one lemma for each: they may be run on any
octets, in any cut, behind a header that says anything. Two things follow.

* `Packet.cuts_unseen`: input in pieces is read like the same octets in one piece;
* `Packet.never_past_end`: no decoder reads past the end, and neither do the slices that take a body
  out of a frame (`Packet.decodeFrameSliced`) or a frame out of a stream (`Stream.nextSliced`).
-/

namespace Mqtt

open Decoder

/-! ## Headers and bodies -/

namespace Header

theorem packetType_ne_underflow (first : UInt8) : packetType first ≠ .error .underflow := by
  unfold packetType
  split <;> nofun

theorem guarded_decode : decode.Guarded 0 0 := by
  refine guarded_requireHas (by nofun) ((guarded_u8 0).bind fun first => ?_)
  split
  · rename_i e htype
    exact guarded_refuse (fun he => packetType_ne_underflow first (he ▸ htype)) 0 0
  · exact VarInt.guarded_decode.bind fun _ => guarded_pure _ 0

/-- Looking for a header stays within the octets that have arrived. -/
theorem peek?_ne_underflow (b : Bytes) : peek? b ≠ .error .underflow := by
  cases b with
  | nil => nofun
  | cons first rest =>
    intro hpeek
    rw [peek?] at hpeek
    cases htype : packetType first with
    | error e =>
      rw [htype] at hpeek
      cases hpeek
      exact packetType_ne_underflow first htype
    | ok t =>
      cases hnumber : VarInt.peek? rest with
      | error e =>
        obtain ⟨rfl, -⟩ := VarInt.peek?_eq_error_iff.1 hnumber
        rw [htype, hnumber] at hpeek
        cases hpeek
      | ok r =>
        rw [htype, hnumber] at hpeek
        cases hpeek

end Header

theorem Will.guarded_decode (v : Version) (qos : UInt8) (retain : Bool) :
    (decode v qos retain).Guarded 0 0 := by
  refine (Properties.guarded_decodeFor v).bind fun _ => Field.guarded_text.bind fun _ =>
    Field.guarded_binary.bind fun _ => ?_
  split
  · exact guarded_refuse (by nofun) 0 0
  · exact guarded_pure _ 0

theorem Connect.guarded_decodeBody : decodeBody.Guarded 0 0 := by
  refine Field.guarded_text.bind fun name => guarded_require (by nofun) fun _ =>
    guarded_requireHas (by nofun) ((guarded_u8 3).bind fun level => ?_)
  split
  · exact guarded_refuse (by nofun) 3 0
  -- of the four octets that were asked for, three are left: the flags and the keep-alive
  · exact (guarded_u8 2).bind fun flags => guarded_require (by nofun) fun _ =>
      (guarded_u16 0).bind fun _ => (Properties.guarded_decodeFor _).bind fun _ =>
      Field.guarded_text.bind fun _ => ((Will.guarded_decode _ _ _).optionally _).bind fun _ =>
      (Field.guarded_text.optionally _).bind fun _ =>
      (Field.guarded_binary.optionally _).bind fun _ => guarded_pure _ 0

namespace ConnAck

theorem guarded_decodeOutcome (v : Version) : (decodeOutcome v).Guarded 1 0 := by
  refine (guarded_u8 0).bind fun code => ?_
  cases v with
  | v311 =>
    dsimp only
    split
    · exact guarded_refuse (by nofun) 0 0
    · exact guarded_pure _ 0
  | v5 =>
    dsimp only
    split
    · exact guarded_refuse (by nofun) 0 0
    · exact Properties.guarded_decodeIfAny.bind fun _ => guarded_pure _ 0

theorem guarded_decodeBody (v : Version) : (decodeBody v).Guarded 0 0 :=
  guarded_requireHas (by nofun) <| (guarded_u8 1).bind fun _ => guarded_require (by nofun) fun _ =>
    (guarded_decodeOutcome v).bind fun _ => guarded_require (by nofun) fun _ => guarded_pure _ 0

end ConnAck

namespace Publish

theorem guarded_decodeId (qos : QoS) : (decodeId qos).Guarded 0 0 := by
  unfold decodeId
  split
  · exact guarded_pure _ 0
  · exact guarded_requireHas (by nofun) ((guarded_u16 0).bind fun _ =>
      guarded_require (by nofun) fun _ => guarded_pure _ 0)

theorem guarded_decodeBody (flags : UInt8) (v : Version) : (decodeBody flags v).Guarded 0 0 := by
  unfold decodeBody
  split
  · exact guarded_refuse (by nofun) 0 0
  · exact guarded_require (by nofun) fun _ => Field.guarded_text.bind fun _ =>
      (guarded_decodeId _).bind fun _ => (Properties.guarded_decodeFor v).bind fun _ =>
      guarded_rest.bind fun _ => guarded_pure _ 0

end Publish

namespace Ack

theorem guarded_decodeReason (kind : AckKind) : (decodeReason kind).Guarded 0 0 := by
  refine guarded_requireHas (by nofun) ((guarded_u8 0).bind fun code => ?_)
  split
  · exact guarded_refuse (by nofun) 0 0
  · exact guarded_require (by nofun) fun _ => guarded_pure _ 0

/-- The announced length may be wrong. It decides which parts are read, and each of them asks for
what it reads. -/
theorem guarded_decodeBody (kind : AckKind) (flags : UInt8) (length : Nat) :
    (decodeBody kind flags length).Guarded 0 0 := by
  refine guarded_require (by nofun) fun _ => guarded_has (n := 2)
    (guarded_require (by nofun) fun _ => (guarded_u16 0).bind fun id =>
      guarded_require (by nofun) fun _ => ?_)
    (guarded_require (by nofun) fun henough => by simp at henough)
  -- nothing is known any more, and the reason and the properties ask for themselves
  split
  · exact guarded_pure _ 0
  · refine (guarded_decodeReason kind).bind fun reason => ?_
    split
    · exact Properties.guarded_decode.bind fun _ => guarded_pure _ 0
    · exact guarded_pure _ 0

end Ack

theorem FilterOptions.ofByteFor_ne_underflow {v : Version} {b : UInt8} :
    ofByteFor v b ≠ .error .underflow := by
  cases v with
  | v311 =>
    rw [ofByteFor]
    split <;> nofun
  | v5 =>
    rw [ofByteFor, ofByte]
    split_ifs
    · nofun
    · nofun
    · split <;> nofun

namespace Subscribe

theorem guarded_decodeFilter (v : Version) : (decodeFilter v).Guarded 0 0 := by
  refine Field.guarded_text.bind fun _ => guarded_requireHas (by nofun) <|
    (guarded_u8 0).bind fun code => ?_
  split
  · rename_i e hoptions
    exact guarded_refuse (fun he => FilterOptions.ofByteFor_ne_underflow (he ▸ hoptions)) 0 0
  · exact guarded_pure _ 0

theorem guarded_decodeBody (flags : UInt8) (v : Version) : (decodeBody flags v).Guarded 0 0 :=
  guarded_require (by nofun) fun _ => guarded_requireHas (by nofun) <|
    (guarded_u16 0).bind fun _ => guarded_require (by nofun) fun _ =>
    (Properties.guarded_decodeFor v).bind fun _ => guarded_requireHas (by nofun) <|
    (((guarded_decodeFilter v).items (Nat.zero_le 1)).bind fun _ => guarded_pure _ 0).mono
      (Nat.zero_le 1) (Nat.le_refl 0)

end Subscribe

theorem Unsubscribe.guarded_decodeBody (flags : UInt8) (v : Version) :
    (decodeBody flags v).Guarded 0 0 :=
  guarded_require (by nofun) fun _ => guarded_requireHas (by nofun) <|
    (guarded_u16 0).bind fun _ => (Properties.guarded_decodeFor v).bind fun _ =>
    (Field.guarded_text.items (Nat.zero_le 1)).bind fun _ =>
    guarded_require (by nofun) fun _ => guarded_pure _ 0

namespace FilterAck

/-- A reason does not ask, since it is read only where something is left. -/
theorem guarded_decodeReason (v : Version) : (decodeReason v).Guarded 1 0 := by
  refine (guarded_u8 0).bind fun code => guarded_require (by nofun) fun _ => ?_
  split
  · exact guarded_refuse (by nofun) 0 0
  · exact guarded_pure _ 0

theorem guarded_decodeSubAck (v : Version) : (decodeSubAck v).Guarded 0 0 :=
  guarded_requireHas (by nofun) <| (guarded_u16 0).bind fun _ =>
    (Properties.guarded_decodeFor v).bind fun _ =>
    ((guarded_decodeReason v).items (Nat.le_refl 1)).bind fun _ =>
    guarded_require (by nofun) fun _ => guarded_pure _ 0

theorem guarded_decodeUnsubAck (v : Version) : (decodeUnsubAck v).Guarded 0 0 := by
  refine guarded_requireHas (by nofun) <| (guarded_u16 0).bind fun _ => ?_
  cases v with
  | v311 => exact guarded_pure _ 0
  | v5 =>
    exact Properties.guarded_decode.bind fun _ =>
      ((guarded_decodeReason .v5).items (Nat.le_refl 1)).bind fun _ => guarded_pure _ 0

end FilterAck

theorem Disconnect.guarded_decodeBody (v : Version) : (decodeBody v).Guarded 0 0 := by
  cases v with
  | v311 => exact guarded_pure _ 0
  | v5 =>
    refine guarded_atEnd (guarded_pure _ 0) ((guarded_u8 0).bind fun code => ?_)
    split
    · exact guarded_refuse (by nofun) 0 0
    · exact Properties.guarded_decodeIfAny.bind fun _ => guarded_pure _ 0

namespace Packet

theorem guarded_decodeBody (h : Header) (v : Version) : (decodeBody h v).Guarded 0 0 := by
  unfold decodeBody
  cases h.packet with
  | connect => exact Connect.guarded_decodeBody.map
  | connAck => exact (ConnAck.guarded_decodeBody v).map
  | publish => exact (Publish.guarded_decodeBody h.flags v).map
  | pubAck | pubRec | pubRel | pubComp => exact (Ack.guarded_decodeBody _ h.flags h.length).map
  | subscribe => exact (Subscribe.guarded_decodeBody h.flags v).map
  | subAck => exact (FilterAck.guarded_decodeSubAck v).map
  | unsubscribe => exact (Unsubscribe.guarded_decodeBody h.flags v).map
  | unsubAck => exact (FilterAck.guarded_decodeUnsubAck v).map
  | pingReq | pingResp => exact guarded_pure _ 0
  | disconnect => exact (Disconnect.guarded_decodeBody v).map
  | auth => exact guarded_refuse (by nofun) 0 0

/-! ## Input in pieces -/

/-- Numbers, fields, headers, properties and bodies are read from a buffer in pieces as from its
octets in one piece: the same value and the same octets left, or errors that differ at most in what
they say of a number that cannot be read. -/
theorem cuts_unseen (s : Segments) (h : Header) (v : Version) :
    Agree (VarInt.decode.run s) (VarInt.decode.run (.ofBytes s.bytes)) ∧
    Agree (Field.text.run s) (Field.text.run (.ofBytes s.bytes)) ∧
    Agree (Field.binary.run s) (Field.binary.run (.ofBytes s.bytes)) ∧
    Agree (Header.decode.run s) (Header.decode.run (.ofBytes s.bytes)) ∧
    Agree (Properties.decode.run s) (Properties.decode.run (.ofBytes s.bytes)) ∧
    Agree ((decodeBody h v).run s) ((decodeBody h v).run (.ofBytes s.bytes)) := by
  have hs : s.bytes = (Segments.ofBytes s.bytes).bytes := (Segments.bytes_ofBytes s.bytes).symm
  exact ⟨VarInt.guarded_decode.blind s _ hs, Field.guarded_text.blind s _ hs,
    Field.guarded_binary.blind s _ hs, Header.guarded_decode.blind s _ hs,
    Properties.guarded_decode.blind s _ hs, (guarded_decodeBody h v).blind s _ hs⟩

/-- Four octets that go on are refused for their length in one piece, and at the end of the last
octet in two. -/
example : VarInt.decode.run (.ofBytes [128, 128, 128, 128]) = .error (.malformed .varIntTooLong) ∧
    VarInt.decode.run ⟨[[128, 128], [128, 128]]⟩ = .error (.malformed .varIntInvalid) := by
  decide

end Packet

/-! ## Slices -/

namespace Bytes

/-- The octets behind the first `n`, which have to be there. -/
def skip (n : Nat) (b : Bytes) : Except Error Bytes :=
  if n ≤ b.length then .ok (b.drop n) else .error .underflow

/-- The first `n` octets, which have to be there, and those behind them. -/
def cut (n : Nat) (b : Bytes) : Except Error (Bytes × Bytes) :=
  if n ≤ b.length then .ok (b.take n, b.drop n) else .error .underflow

variable {n : Nat} {b : Bytes}

theorem skip_eq (h : n ≤ b.length) : skip n b = .ok (b.drop n) := if_pos h

theorem cut_eq (h : n ≤ b.length) : cut n b = .ok (b.take n, b.drop n) := if_pos h

end Bytes

namespace Packet

/-- `decodeFrame` with the body as a slice of the frame. -/
def decodeFrameSliced (b : Bytes) (v : Version) : Except Error Packet := do
  match ← Header.peek? b with
  | none => .error (.malformed .truncatedHeader)
  | some (h, n) =>
    let body ← Bytes.skip n b
    if body.length = h.length then (decodeBody h v).runOn body
    else .error (.malformed (.lengthMismatch h.length body.length))

theorem decodeFrameSliced_eq (b : Bytes) (v : Version) :
    decodeFrameSliced b v = decodeFrame b v := by
  rw [decodeFrameSliced, decodeFrame]
  rcases hpeek : Header.peek? b with e | _ | ⟨h, n⟩
  · rfl
  · rfl
  · have hbody := Bytes.skip_eq (Header.bounds_of_peek? hpeek).2
    simp only [bind, Except.bind, hbody]

end Packet

namespace Stream

/-- `next` with the frame cut off the stream and the body as a slice of the frame. -/
def nextSliced (v : Version) (limit : Option Nat) (b : Bytes) : Except Error Next :=
  match Header.peek? b with
  | .error e => .ok (.refused e b)
  | .ok none => .ok .incomplete
  | .ok (some (h, n)) =>
    match within limit (n + h.length) with
    | .error e => .ok (.refused e b)
    | .ok () =>
      if b.length < n + h.length then .ok .incomplete
      else do
        let (frame, rest) ← Bytes.cut (n + h.length) b
        let body ← Bytes.skip n frame
        match (Packet.decodeBody h v).runOn body with
        | .error e => .ok (.refused e rest)
        | .ok p => .ok (.packet p rest)

theorem nextSliced_eq (v : Version) (limit : Option Nat) (b : Bytes) :
    nextSliced v limit b = .ok (next v limit b) := by
  rcases hpeek : Header.peek? b with e | _ | ⟨h, n⟩
  · simp only [nextSliced, next, hpeek]
  · simp only [nextSliced, next, hpeek]
  · rw [nextSliced, hpeek, next_of_peek? hpeek]
    dsimp only
    cases within limit (n + h.length) with
    | error e => rfl
    | ok u =>
      dsimp only
      by_cases hshort : b.length < n + h.length
      · rw [if_pos hshort, if_pos hshort]
      · have hbody : Bytes.skip n (b.take (n + h.length)) = .ok ((b.take (n + h.length)).drop n) :=
          Bytes.skip_eq (by rw [List.length_take]; omega)
        rw [if_neg hshort, if_neg hshort, Bytes.cut_eq (Nat.le_of_not_lt hshort)]
        simp only [bind, Except.bind, hbody]
        cases (Packet.decodeBody h v).runOn ((b.take (n + h.length)).drop n) <;> rfl

end Stream

namespace Packet

theorem runOn_decodeBody_ne_underflow (h : Header) (v : Version) (b : Bytes) :
    (decodeBody h v).runOn b ≠ .error .underflow := by
  intro hrun
  have hinside := (guarded_decodeBody h v).inside (.ofBytes b) (Nat.zero_le _)
  rw [runOn] at hrun
  cases hd : (decodeBody h v).run (.ofBytes b) with
  | error e =>
    rw [hd] at hrun hinside
    cases hrun
    exact hinside rfl
  | ok r =>
    rw [hd] at hrun
    cases hrun

theorem decodeFrame_ne_underflow (b : Bytes) (v : Version) :
    decodeFrame b v ≠ .error .underflow := by
  rw [decodeFrame]
  rcases hpeek : Header.peek? b with e | _ | ⟨h, n⟩
  · intro he
    cases he
    exact Header.peek?_ne_underflow b hpeek
  · intro he
    cases he
  · show (if _ then (decodeBody h v).runOn (b.drop n) else _) ≠ _
    split
    · exact runOn_decodeBody_ne_underflow h v _
    · intro he
      cases he

end Packet

theorem Stream.next_ne_underflow (v : Version) (limit : Option Nat) (b rest : Bytes) :
    next v limit b ≠ .refused .underflow rest := by
  intro hnext
  rcases hpeek : Header.peek? b with e | _ | ⟨h, n⟩
  · rw [next, hpeek] at hnext
    cases hnext
    exact Header.peek?_ne_underflow b hpeek
  · rw [next, hpeek] at hnext
    cases hnext
  · rw [next_of_peek? hpeek] at hnext
    split at hnext
    · rename_i e hlimit
      cases hnext
      unfold within at hlimit
      split at hlimit
      · cases hlimit
      · split_ifs at hlimit
        cases hlimit
    · split_ifs at hnext
      split at hnext
      · rename_i e hbody
        cases hnext
        exact Packet.runOn_decodeBody_ne_underflow h v _ hbody
      · cases hnext

/-- However the octets are cut and whatever the header says, no read of a decoder goes past the end,
and no slice: every input is read as a packet, or waits for more, or is refused for a cause of its
own. -/
theorem Packet.never_past_end (v : Version) :
    (∀ (h : Header) (s : Segments), (decodeBody h v).run s ≠ .error .underflow) ∧
    (∀ s : Segments, Properties.decode.run s ≠ .error .underflow) ∧
    (∀ b : Bytes, decodeFrameSliced b v = decodeFrame b v ∧
      decodeFrameSliced b v ≠ .error .underflow) ∧
    ∀ (limit : Option Nat) (b : Bytes),
      Stream.nextSliced v limit b = .ok (Stream.next v limit b) ∧
      ∀ rest, Stream.next v limit b ≠ .refused .underflow rest := by
  refine ⟨fun h s => (guarded_decodeBody h v).inside s (Nat.zero_le _),
    fun s => Properties.guarded_decode.inside s (Nat.zero_le _), fun b => ?_, fun limit b => ?_⟩
  · have hsliced := decodeFrameSliced_eq b v
    exact ⟨hsliced, hsliced ▸ decodeFrame_ne_underflow b v⟩
  · exact ⟨Stream.nextSliced_eq v limit b, Stream.next_ne_underflow v limit b⟩

/-- A read that does not ask goes past the end. -/
example : u16.run ⟨[[], [1]]⟩ = .error .underflow := rfl

end Mqtt
