import Mqtt.Proofs.Packet.Frame
import Mqtt.Proofs.Wire.Reading

/-!
# What a frame says in an exchange

A frame of an exchange has a `Role`: the type of its packet, the identifier it carries and whether
it is marked as sent again. `Role.ofFrame?` reads the role off the octets; other frames, a QoS 0
PUBLISH among them, have none.

The role of a frame is that of the packet it holds, for frames that are written
(`Role.ofFrame?_of_toBytes`) and for frames that are read (`Role.ofFrame?_of_decodeFrame`). So a
frame keeps its role when it is converted to another version, and the DUP bit changes nothing else
in it.
-/

namespace Mqtt

/-- What a frame is in the exchange with an identifier. -/
structure Role where
  type : PacketType
  id : UInt16
  /-- Whether the DUP bit is set. -/
  repeated : Bool
  deriving DecidableEq

namespace Role

/-- The role of a PUBLISH that is sent again. -/
def again (r : Role) : Role := { r with repeated := true }

/-- The role of a packet. -/
def ofPacket? : Packet → Option Role
  | .publish p => if p.qos = .atMostOnce then none else p.id.map (⟨.publish, ·, p.dup⟩)
  | .ack kind a => some ⟨kind.packetType, a.id, false⟩
  | _ => none

/-- The role of a frame with a header and the octets behind it. -/
def ofBody? (h : Header) (body : Bytes) : Option Role :=
  match h.packet with
  | .publish =>
    if h.flags / 2 % 4 = 0 then none
    else ((Field.behind body).bind Decoder.firstWord).map (⟨.publish, ·, h.flags &&& 0x08 ≠ 0⟩)
  | .pubAck | .pubRec | .pubRel | .pubComp =>
    (Decoder.firstWord body).map (⟨h.packet, ·, false⟩)
  | _ => none

/-- The role of a frame. -/
def ofFrame? (frame : Bytes) : Option Role :=
  match Header.peek? frame with
  | .ok (some (h, n)) => ofBody? h (frame.drop n)
  | _ => none

end Role

/-! ## Frames that are written -/

theorem Output.toExcept_eq_ok_iff {o : Output} {b : Bytes} : o.toExcept = .ok b ↔ o = .put b := by
  obtain ⟨x, e⟩ := o
  cases e <;> simp [toExcept, put]

namespace Header

theorem firstOctet_mod (h : Header) : h.firstOctet % 16 = h.flags % 16 := by
  have htype : h.packet.toByte.toNat < 16 := by cases h.packet <;> decide
  apply UInt8.toNat_inj.1
  simp only [firstOctet, UInt8.toNat_add, UInt8.toNat_mul, UInt8.toNat_mod, UInt8.reduceToNat]
  omega

/-- A header is found again at the front of what was written. -/
theorem peek?_firstOctet (h : Header) (hlen : h.length ≤ VarInt.max) (rest : Bytes) :
    peek? (h.firstOctet :: (VarInt.digits 3 h.length ++ rest)) =
      .ok (some (⟨h.packet, h.flags % 16, h.length⟩, 1 + (VarInt.digits 3 h.length).length)) := by
  have htype : packetType h.firstOctet = .ok h.packet := by
    rw [packetType, firstOctet_div, PacketType.ofByte?_toByte]
  rw [peek?, htype, VarInt.peek?_digits hlen, firstOctet_mod]
  rfl

end Header

/-- The parts of a written packet. -/
theorem Packet.parts_of_toBytes {p : Packet} {frame : Bytes} (h : p.toBytes = .ok frame) :
    ∃ body, p.encodeBody = .put body ∧ body.length ≤ VarInt.max ∧
      frame = (Header.mk p.packetType p.flags body.length).firstOctet ::
        (VarInt.digits 3 body.length ++ body) := by
  unfold toBytes encode at h
  dsimp only at h
  split at h
  · cases h
  rename_i hbody
  have hput : p.encodeBody = .put p.encodeBody.bytes :=
    Output.toExcept_eq_ok_iff.1 (by rw [Output.toExcept, hbody])
  split at h
  · rw [Header.encode, VarInt.encode] at h
    split at h
    · rename_i hlen
      cases h
      exact ⟨_, hput, hlen, rfl⟩
    · cases h
  · cases h

namespace Role

/-- The flags of a PUBLISH tell whether it has an identifier and whether it is sent again. -/
theorem flags_publish (p : Publish) : (p.flags % 16 / 2 % 4 = 0 ↔ p.qos = .atMostOnce) ∧
    decide (p.flags % 16 &&& 0x08 ≠ 0) = p.dup := by
  unfold Publish.flags flagBit
  cases p.qos <;> cases p.dup <;> cases p.retain <;> decide

theorem id_of_encodeBody {p : Publish} {body : Bytes} (h : p.encodeBody = .put body)
    (hq : p.qos ≠ .atMostOnce) : ∃ id, p.id = some id ∧
      (Field.behind body).bind Decoder.firstWord = some id := by
  have h := Output.toExcept_eq_ok_iff.2 h
  simp only [Publish.encodeBody, Output.concat_cons, Output.toExcept_append,
    Except.bind_eq_ok_iff, Except.pure_eq_ok_iff] at h
  obtain ⟨topic, htopic, _, ⟨word, hword, rest, -, rfl⟩, rfl⟩ := h
  have hid : ∃ id, p.id = some id ∧ Bytes.ofWord id = word := by
    unfold Publish.encodeId at hword
    split at hword
    · exact absurd ‹_› hq
    · split at hword
      · cases hword
      · cases hword
        exact ⟨_, ‹_›, rfl⟩
    · cases hword
  obtain ⟨id, hid, rfl⟩ := hid
  refine ⟨id, hid, ?_⟩
  rw [Field.encodeText] at htopic
  split at htopic
  · rename_i hlen
    have htopic : Field.prefixed (Utf8.encode p.topic) = topic := Except.ok.inj htopic
    rw [← htopic, Field.behind_prefixed hlen, Option.bind_some, Decoder.firstWord_ofWord]
  · cases htopic

theorem ofBody?_publish {p : Publish} {body : Bytes} {n : Nat} (h : p.encodeBody = .put body) :
    ofBody? ⟨.publish, p.flags % 16, n⟩ body = ofPacket? (.publish p) := by
  obtain ⟨hqos, hdup⟩ := flags_publish p
  by_cases hq : p.qos = .atMostOnce
  · simp only [ofBody?, hqos.2 hq, ofPacket?, hq, ↓reduceIte]
  · obtain ⟨id, hid, hbody⟩ := id_of_encodeBody h hq
    simp only [ofBody?, mt hqos.1 hq, ↓reduceIte, hbody, Option.map_some, hdup, ofPacket?, hq, hid]

theorem firstWord_of_encodeBody {a : Ack} {body : Bytes} (h : a.encodeBody = .put body) :
    Decoder.firstWord body = some a.id := by
  have h := Output.toExcept_eq_ok_iff.2 h
  simp only [Ack.encodeBody, Output.toExcept_append, Output.toExcept_put, Except.bind_eq_ok_iff,
    Except.pure_eq_ok_iff] at h
  obtain ⟨_, hword, rest, -, rfl⟩ := h
  cases hword
  exact Decoder.firstWord_ofWord a.id rest

/-- A written frame has the role of its packet. -/
theorem ofFrame?_of_toBytes {p : Packet} {frame : Bytes} (h : p.toBytes = .ok frame) :
    ofFrame? frame = ofPacket? p := by
  obtain ⟨body, hbody, hlen, rfl⟩ := Packet.parts_of_toBytes h
  have hpeek := Header.peek?_firstOctet ⟨p.packetType, p.flags, body.length⟩ hlen body
  have hdrop : ((Header.mk p.packetType p.flags body.length).firstOctet ::
      (VarInt.digits 3 body.length ++ body)).drop
        (1 + (VarInt.digits 3 body.length).length) = body := by
    rw [Nat.add_comm, List.drop_succ_cons, List.drop_left]
  rw [ofFrame?, hpeek]
  simp only [hdrop]
  cases p with
  | publish p => exact ofBody?_publish hbody
  | ack kind a =>
    have hid := firstWord_of_encodeBody hbody
    cases kind <;> simp [ofBody?, ofPacket?, Packet.packetType, AckKind.packetType, hid]
  | connect | connAck | subscribe | subAck | unsubscribe | unsubAck | pingReq | pingResp
  | disconnect => rfl

/-! ## Frames that are read -/

theorem id_of_decodeBody {flags : UInt8} {v : Version} {s s' : Segments} {p : Publish}
    (h : (Publish.decodeBody flags v).run s = .ok (p, s')) :
    (flags / 2 % 4 = 0 ↔ p.qos = .atMostOnce) ∧ p.dup = decide (flags &&& 0x08 ≠ 0) ∧
      (p.qos ≠ .atMostOnce → ∃ id, p.id = some id ∧
        (Field.behind s.bytes).bind Decoder.firstWord = some id) := by
  unfold Publish.decodeBody at h
  split at h
  · exact absurd h Decoder.refuse_ne_ok
  rename_i qos hqos
  simp only [Decoder.bind_eq_ok_iff, Decoder.require_eq_ok_iff, Decoder.pure_eq_ok_iff] at h
  obtain ⟨_, _, ⟨-, rfl⟩, topic, s₁, htopic, id, s₂, hid, _, _, -, _, _, -, rfl, -⟩ := h
  have hbyte : qos.toByte = flags / 2 % 4 := toByte_of_find? hqos
  refine ⟨?_, rfl, fun hq => ?_⟩
  · have hzero : ∀ q : QoS, q.toByte = 0 ↔ q = .atMostOnce := by
      intro q
      cases q <;> decide
    rw [← hbyte]
    exact hzero qos
  · rw [Publish.decodeId, if_neg hq] at hid
    simp only [Decoder.bind_eq_ok_iff, Decoder.require_eq_ok_iff, Decoder.pure_eq_ok_iff,
      Decoder.has_eq_ok_iff] at hid
    obtain ⟨_, _, ⟨-, rfl⟩, _, _, ⟨-, rfl⟩, id, s₃, hword, _, _, ⟨-, rfl⟩, rfl, -⟩ := hid
    refine ⟨id, rfl, ?_⟩
    rw [Field.behind_of_text htopic, Option.bind_some, Decoder.firstWord_of_u16 hword]

theorem firstWord_of_decodeBody {kind : AckKind} {flags : UInt8} {n : Nat} {s s' : Segments}
    {a : Ack} (h : (Ack.decodeBody kind flags n).run s = .ok (a, s')) :
    Decoder.firstWord s.bytes = some a.id := by
  unfold Ack.decodeBody at h
  simp only [Decoder.bind_eq_ok_iff, Decoder.require_eq_ok_iff, Decoder.has_eq_ok_iff] at h
  obtain ⟨_, _, ⟨-, rfl⟩, _, _, ⟨-, rfl⟩, _, _, ⟨-, rfl⟩, id, s₁, hid, _, _, ⟨-, rfl⟩, h⟩ := h
  rw [Decoder.firstWord_of_u16 hid]
  split at h
  · obtain ⟨rfl, -⟩ := Decoder.pure_eq_ok_iff.1 h
    rfl
  · obtain ⟨reason, s₂, -, h⟩ := Decoder.bind_eq_ok_iff.1 h
    split at h <;> obtain ⟨_, _, -, h⟩ := Decoder.bind_eq_ok_iff.1 h <;>
      obtain ⟨rfl, -⟩ := Decoder.pure_eq_ok_iff.1 h <;> rfl

theorem ofBody?_of_decodePublish {flags : UInt8} {n : Nat} {v : Version} {body : Bytes}
    {s' : Segments} {p : Publish}
    (h : (Publish.decodeBody flags v).run (.ofBytes body) = .ok (p, s')) :
    ofBody? ⟨.publish, flags, n⟩ body = ofPacket? (.publish p) := by
  obtain ⟨hqos, hdup, hid⟩ := id_of_decodeBody h
  by_cases hq : p.qos = .atMostOnce
  · simp only [ofBody?, hqos.2 hq, ofPacket?, hq, ↓reduceIte]
  · obtain ⟨id, hid, hbody⟩ := hid hq
    rw [Segments.bytes_ofBytes] at hbody
    simp only [ofBody?, mt hqos.1 hq, ↓reduceIte, hbody, Option.map_some, hdup, ofPacket?, hq, hid]

theorem ofBody?_of_decodeAck (kind : AckKind) {flags : UInt8} {n : Nat} {body : Bytes}
    {s' : Segments} {a : Ack}
    (h : (Ack.decodeBody kind flags n).run (.ofBytes body) = .ok (a, s')) :
    ofBody? ⟨kind.packetType, flags, n⟩ body = ofPacket? (.ack kind a) := by
  have hid := firstWord_of_decodeBody h
  rw [Segments.bytes_ofBytes] at hid
  cases kind <;> simp [ofBody?, ofPacket?, AckKind.packetType, hid]

theorem ofBody?_of_decodeBody {h : Header} {v : Version} {body : Bytes} {s' : Segments} {p : Packet}
    (hp : (Packet.decodeBody h v).run (.ofBytes body) = .ok (p, s')) :
    ofBody? h body = ofPacket? p := by
  obtain ⟨t, flags, n⟩ := h
  cases t with
  | publish =>
    obtain ⟨q, rfl, hq⟩ := Decoder.map_eq_ok_iff.1 hp
    exact ofBody?_of_decodePublish hq
  | pubAck =>
    obtain ⟨a, rfl, ha⟩ := Decoder.map_eq_ok_iff.1 hp
    exact ofBody?_of_decodeAck .pubAck ha
  | pubRec =>
    obtain ⟨a, rfl, ha⟩ := Decoder.map_eq_ok_iff.1 hp
    exact ofBody?_of_decodeAck .pubRec ha
  | pubRel =>
    obtain ⟨a, rfl, ha⟩ := Decoder.map_eq_ok_iff.1 hp
    exact ofBody?_of_decodeAck .pubRel ha
  | pubComp =>
    obtain ⟨a, rfl, ha⟩ := Decoder.map_eq_ok_iff.1 hp
    exact ofBody?_of_decodeAck .pubComp ha
  | connect | connAck | subscribe | subAck | unsubscribe | unsubAck | disconnect =>
    obtain ⟨a, rfl⟩ := Decoder.map_inv hp
    rfl
  | pingReq | pingResp =>
    obtain ⟨rfl, -⟩ := Decoder.pure_eq_ok_iff.1 hp
    rfl
  | auth => exact absurd hp Decoder.refuse_ne_ok

/-- A frame that is read has the role of the packet in it. -/
theorem ofFrame?_of_decodeFrame {frame : Bytes} {v : Version} {p : Packet}
    (h : Packet.decodeFrame frame v = .ok p) : ofFrame? frame = ofPacket? p := by
  obtain ⟨hd, n, s, hpeek, -, hbody⟩ := Packet.decodeFrame_inv h
  rw [ofFrame?, hpeek]
  exact ofBody?_of_decodeBody hbody

/-! ## Frames that are changed -/

theorem ofPacket?_of_inVersion {v : Version} {p q : Packet} (h : p.inVersion v = .ok q) :
    ofPacket? q = ofPacket? p := by
  unfold Packet.inVersion at h
  split at h
  · cases h
    rfl
  · cases h
    cases v <;> rfl
  · cases h
    cases v <;> rfl
  · cases h

/-- A converted frame keeps its role. -/
theorem ofFrame?_of_convert {frame frame' : Bytes} {old new : Version}
    (h : Retained.convert frame old new = .ok frame') : ofFrame? frame' = ofFrame? frame := by
  simp only [Retained.convert, Except.bind_eq_ok_iff] at h
  obtain ⟨p, hp, q, hq, h⟩ := h
  rw [ofFrame?_of_toBytes h, ofPacket?_of_inVersion hq, ofFrame?_of_decodeFrame hp]

theorem flags_markDup (b : UInt8) :
    (b ||| 0x08) / 16 = b / 16 ∧ (b ||| 0x08) % 16 / 2 % 4 = b % 16 / 2 % 4 ∧
      (b ||| 0x08) % 16 &&& 0x08 ≠ 0 := by
  have h : ∀ n : Fin 256, (UInt8.ofFin n ||| 0x08) / 16 = UInt8.ofFin n / 16 ∧
      (UInt8.ofFin n ||| 0x08) % 16 / 2 % 4 = UInt8.ofFin n % 16 / 2 % 4 ∧
        (UInt8.ofFin n ||| 0x08) % 16 &&& 0x08 ≠ 0 := by
    decide +kernel
  exact h b.toFin

/-- The DUP bit is all that is changed. -/
theorem ofFrame?_of_markDup {frame frame' : Bytes} (h : Publish.markDup frame = .ok frame') :
    ofFrame? frame' = (ofFrame? frame).map again := by
  unfold Publish.markDup at h
  split at h
  · cases h
  rename_i first rest
  split at h
  · rename_i hpublish
    cases h
    obtain ⟨htype, hqos, hdup⟩ := flags_markDup first
    have hold : Header.packetType first = .ok .publish := by
      rw [Header.packetType, hpublish]
      rfl
    have hnew : Header.packetType (first ||| 0x08) = .ok .publish := by
      rw [Header.packetType, htype, hpublish]
      rfl
    simp only [ofFrame?, Header.peek?, hold, hnew]
    rcases VarInt.peek? rest with err | _ | ⟨n, k⟩
    · rfl
    · rfl
    · have hdrop : ∀ b : UInt8, (b :: rest).drop (1 + k) = rest.drop k := fun b => by
        rw [Nat.add_comm, List.drop_succ_cons]
      change ofBody? ⟨.publish, (first ||| 0x08) % 16, n⟩ ((_ :: rest).drop (1 + k)) =
        (ofBody? ⟨.publish, first % 16, n⟩ ((first :: rest).drop (1 + k))).map _
      simp only [hdrop, ofBody?, hqos]
      split
      · rfl
      · simp only [decide_eq_true hdup, Option.map_map, Function.comp_def, again]
  · cases h

theorem ofFrame?_ackBytes (v : Version) (kind : AckKind) (id : UInt16) (reason : Reason) :
    ofFrame? (Retained.ackBytes v kind id reason) = some ⟨kind.packetType, id, false⟩ := by
  rw [ofFrame?_of_toBytes (Retained.ack_eq v kind id reason)]
  cases v <;> rfl

end Role

end Mqtt
