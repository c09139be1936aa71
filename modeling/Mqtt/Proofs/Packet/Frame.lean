import Mqtt.Packet.Retained
import Mqtt.Proofs.Success
import Mqtt.Session.Exchange

/-!
# Frames and their types

An acknowledgment without properties, the DISCONNECT of a client and a PINGREQ have short bodies,
so writing them succeeds: `Retained.ackBytes` are the octets of an acknowledgment.

The first octet of a frame tells the type of the packet that it holds, for frames that are written
(`Packet.type_of_toBytes`) and for frames that are read (`Packet.type_of_decodeFrame`). So a frame
keeps its type when it is converted to another version: `Retained.type_of_convert`.
-/

namespace Mqtt

/-- A body of less than 128 octets is written behind its type, its flags and one octet of length. -/
theorem Packet.toBytes_of_short {p : Packet} {body : Bytes} (h : p.encodeBody = .put body)
    (hlt : body.length < 128) :
    p.toBytes =
      .ok ((p.packetType.toByte * 16 + p.flags % 16) :: UInt8.ofNat body.length :: body) := by
  have hmax : body.length ≤ VarInt.max := by
    rw [VarInt.max]
    omega
  have hdigits : VarInt.digits 3 body.length = [UInt8.ofNat body.length] := by
    simp [VarInt.digits, hlt]
  have hlong : body.length < 4294967296 := by omega
  simp only [toBytes, encode, h, Output.put, hlong, ↓reduceIte, Header.encode, VarInt.encode, hmax,
    hdigits]
  rfl

theorem Packet.toBytes_disconnect (v : Version) :
    ∃ frame, (Packet.disconnect (.normal v)).toBytes = .ok frame := by
  have hbody : (Packet.disconnect (.normal v)).encodeBody = .put [] := by cases v <;> rfl
  exact ⟨_, toBytes_of_short hbody (by simp)⟩

theorem Packet.toBytes_pingReq : ∃ frame, Packet.pingReq.toBytes = .ok frame :=
  ⟨_, toBytes_of_short (show Packet.pingReq.encodeBody = .put [] from rfl) (by simp)⟩

/-! ## Acknowledgments -/

/-- What a version says of a reason: v3.1.1 has none. -/
def Reason.inVersion (v : Version) (r : Reason) : Reason :=
  match v with
  | .v311 => .success
  | .v5 => r

namespace Retained

/-- The body of an acknowledgment with a reason and no properties. -/
def ackBody (v : Version) (id : UInt16) (reason : Reason) : Bytes :=
  Bytes.ofWord id ++ if reason.inVersion v = .success then [] else [(reason.inVersion v).toByte]

theorem length_ackBody_le (v : Version) (id : UInt16) (reason : Reason) :
    (ackBody v id reason).length ≤ 3 := by
  unfold ackBody
  split <;> simp

theorem encodeBody_ofReason (kind : AckKind) (v : Version) (id : UInt16) (reason : Reason) :
    (Packet.ack kind ((Ack.ofReason id reason).inVersion v)).encodeBody =
      .put (ackBody v id reason) := by
  have hv : (Ack.ofReason id reason).inVersion v = Ack.ofReason id (reason.inVersion v) := by
    cases v <;> rfl
  rw [hv]
  by_cases h : reason.inVersion v = .success
  · simp [Packet.encodeBody, Ack.encodeBody, Ack.ofReason, ackBody, h, Properties.isEmpty,
      Properties.empty]
  · simp [Packet.encodeBody, Ack.encodeBody, Ack.ofReason, ackBody, h, Properties.isEmpty,
      Properties.empty]

/-- The octets of an acknowledgment with a reason and no properties. -/
def ackBytes (v : Version) (kind : AckKind) (id : UInt16) (reason : Reason) : Bytes :=
  (kind.packetType.toByte * 16 + kind.flags % 16) ::
    UInt8.ofNat (ackBody v id reason).length :: ackBody v id reason

/-- An acknowledgment is always written. -/
theorem ack_eq (v : Version) (kind : AckKind) (id : UInt16) (reason : Reason) :
    ack v kind id reason = .ok (ackBytes v kind id reason) := by
  have hle := length_ackBody_le v id reason
  exact Packet.toBytes_of_short (encodeBody_ofReason kind v id reason) (by omega)

theorem type_ackBytes (v : Version) (kind : AckKind) (id : UInt16) (reason : Reason) :
    (ackBytes v kind id reason).headD 0 / 16 = kind.packetType.toByte := by
  rw [ackBytes, List.headD_cons]
  cases kind <;> decide

end Retained

/-! ## The type of a frame -/

namespace Header

/-- The first octet of a header holds its type. -/
theorem firstOctet_div (h : Header) : h.firstOctet / 16 = h.packet.toByte := by
  have hflags : h.flags.toNat % 16 < 16 := Nat.mod_lt _ (by decide)
  have htype : h.packet.toByte.toNat < 16 := by cases h.packet <;> decide
  apply UInt8.toNat_inj.1
  simp only [firstOctet, UInt8.toNat_div, UInt8.toNat_add, UInt8.toNat_mul, UInt8.toNat_mod,
    UInt8.reduceToNat]
  omega

theorem type_of_peek? {b : Bytes} {h : Header} {n : Nat} (hp : peek? b = .ok (some (h, n))) :
    h.packet.toByte = b.headD 0 / 16 := by
  cases b with
  | nil => cases hp
  | cons first rest =>
    simp only [peek?, Except.bind_eq_ok_iff, Except.pure_eq_ok_iff, Option.map_eq_some_iff] at hp
    obtain ⟨t, ht, -, -, r, -, hr⟩ := hp
    cases hr
    unfold packetType at ht
    split at ht
    · cases ht
      exact toByte_of_find? ‹_›
    · cases ht

end Header

theorem Decoder.map_inv {α β : Type} {f : α → β} {d : Decoder α} {s s' : Segments} {b : β}
    (h : (f <$> d).run s = .ok (b, s')) : ∃ a, b = f a := by
  rw [StateT.run_map] at h
  obtain ⟨r, -, hr⟩ := Except.map_eq_ok_iff.1 h
  cases hr
  exact ⟨r.1, rfl⟩

namespace Packet

theorem packetType_of_decodeBody {h : Header} {v : Version} {s s' : Segments} {p : Packet}
    (hd : (decodeBody h v).run s = .ok (p, s')) : p.packetType = h.packet := by
  unfold decodeBody at hd
  split at hd
  case h_12 hh => cases hd; exact hh.symm
  case h_13 hh => cases hd; exact hh.symm
  case h_15 => cases hd
  all_goals
    rename_i hh
    obtain ⟨a, rfl⟩ := Decoder.map_inv hd
    exact hh.symm

/-- A frame that is read is a header and a body of the announced length. -/
theorem decodeFrame_inv {b : Bytes} {v : Version} {p : Packet} (h : decodeFrame b v = .ok p) :
    ∃ hd n s, Header.peek? b = .ok (some (hd, n)) ∧ (b.drop n).length = hd.length ∧
      (decodeBody hd v).run (.ofBytes (b.drop n)) = .ok (p, s) := by
  rw [decodeFrame, Except.bind_eq_ok_iff] at h
  obtain ⟨r, hr, h⟩ := h
  cases r with
  | none => cases h
  | some r =>
    obtain ⟨hd, n⟩ := r
    dsimp only at h
    split at h
    · rename_i hlen
      obtain ⟨⟨q, s⟩, hq, rfl⟩ := Except.map_eq_ok_iff.1 h
      exact ⟨hd, n, s, hr, hlen, hq⟩
    · cases h

/-- The packet that a frame holds has the type in the first octet. -/
theorem type_of_decodeFrame {b : Bytes} {v : Version} {p : Packet} (h : decodeFrame b v = .ok p) :
    p.packetType.toByte = b.headD 0 / 16 := by
  obtain ⟨hd, n, s, hpeek, -, hbody⟩ := decodeFrame_inv h
  rw [packetType_of_decodeBody hbody, Header.type_of_peek? hpeek]

/-- A written packet begins with its type. -/
theorem type_of_toBytes {p : Packet} {frame : Bytes} (h : p.toBytes = .ok frame) :
    frame.headD 0 / 16 = p.packetType.toByte := by
  unfold toBytes encode at h
  dsimp only at h
  split at h
  · cases h
  split at h
  · rw [Header.encode, Output.append_assoc, Output.toExcept_append] at h
    simp only [Except.bind_eq_ok_iff, Except.pure_eq_ok_iff] at h
    obtain ⟨first, hfirst, rest, -, rfl⟩ := h
    cases hfirst
    exact Header.firstOctet_div _
  · cases h

theorem packetType_of_inVersion {v : Version} {p q : Packet} (h : p.inVersion v = .ok q) :
    q.packetType = p.packetType := by
  unfold inVersion at h
  split at h <;> cases h <;> rfl

end Packet

/-- A converted frame keeps its type. -/
theorem Retained.type_of_convert {frame frame' : Bytes} {old new : Version}
    (h : convert frame old new = .ok frame') : frame'.headD 0 / 16 = frame.headD 0 / 16 := by
  simp only [convert, Except.bind_eq_ok_iff] at h
  obtain ⟨p, hp, q, hq, h⟩ := h
  rw [Packet.type_of_toBytes h, Packet.packetType_of_inVersion hq, Packet.type_of_decodeFrame hp]

end Mqtt
