import Mqtt.Packet.Retained
import Mqtt.Proofs.Packet.RoundTrip

/-!
# Written frames that are accepted

Writing a packet does not ask whether its version can say all of it: v3.1.1 leaves the properties
out, and an octet has room for two bits of the retain handling. `Packet.asSaid` is what is left of a
packet in that way. It is written as the same frame (`Packet.toBytes_asSaid`), and it is what the
frame is read as (`Packet.Sayable.decodeFrame_of_toBytes`).

Frames that are changed are accepted, too: a PUBLISH with its DUP bit set
(`Publish.Sayable.decodeFrame_of_markDup`) and a frame in another version
(`Publish.Sayable.convert_inv`, `Retained.convert_ackBytes`). An acknowledgment is read alike in
every version: `Retained.decodeFrame_ackBytes`.
-/

namespace Mqtt

open Decoder

/-! ## What is left of a packet -/

namespace Properties

/-- The properties as a version says them. -/
def inVersion (v : Version) (ps : Properties) : Properties :=
  match v with
  | .v311 => .empty
  | .v5 => ps

variable {v : Version} {ps : Properties}

theorem encodeFor_inVersion : (ps.inVersion v).encodeFor v = ps.encodeFor v := by
  cases v <;> rfl

theorem Sound.inVersion (h : ps.Sound) (v : Version) : (ps.inVersion v).Sound := by
  cases v with
  | v311 => exact sound_empty
  | v5 => exact h

theorem inVersion_v311 (hv : v = .v311) : ps.inVersion v = .empty := by
  rw [hv]
  rfl

end Properties

/-- The will as a version says it: v3.1.1 has no delay. -/
def Will.inVersion (v : Version) (w : Will) : Will :=
  match v with
  | .v311 => { w with delay := none }
  | .v5 => w

/-- The CONNECT that is read from the frame. -/
def Connect.asSaid (p : Connect) : Connect :=
  { p with
    will := p.will.map (Will.inVersion p.version)
    properties := p.properties.inVersion p.version }

/-- The PUBLISH that is read from the frame. -/
def Publish.asSaid (p : Publish) : Publish :=
  { p with properties := p.properties.inVersion p.version }

/-- The options that are read from their octet. -/
def FilterOptions.inVersion (v : Version) (o : FilterOptions) : FilterOptions :=
  match v with
  | .v311 => { qos := o.qos }
  | .v5 => { o with retainHandling := o.retainHandling % 4 }

/-- The topic filter that is read from the frame. -/
def TopicFilter.inVersion (v : Version) (f : TopicFilter) : TopicFilter :=
  { f with options := f.options.inVersion v }

/-- The SUBSCRIBE that is read from the frame. -/
def Subscribe.asSaid (p : Subscribe) : Subscribe :=
  { p with
    filters := p.filters.map (TopicFilter.inVersion p.version)
    properties := p.properties.inVersion p.version }

/-- The packet that is read from the frame of a packet. -/
def Packet.asSaid : Packet → Packet
  | .connect p => .connect p.asSaid
  | .publish p => .publish p.asSaid
  | .subscribe p => .subscribe p.asSaid
  | p => p

/-! ### The frame is the same -/

theorem Will.encode_inVersion (v : Version) (w : Will) : (w.inVersion v).encode v = w.encode v := by
  cases v <;> rfl

theorem Connect.flags_asSaid (p : Connect) : p.asSaid.flags = p.flags := by
  obtain ⟨v, clientId, keepAlive, cleanStart, username, password, will, properties⟩ := p
  cases will with
  | none => rfl
  | some w => cases v <;> rfl

theorem Connect.encodeBody_asSaid (p : Connect) : p.asSaid.encodeBody = p.encodeBody := by
  rw [encodeBody, encodeBody, p.flags_asSaid]
  simp only [asSaid, Option.map_map, Function.comp_def, Will.encode_inVersion,
    Properties.encodeFor_inVersion]

theorem Publish.encodeBody_asSaid (p : Publish) : p.asSaid.encodeBody = p.encodeBody := by
  simp only [encodeBody, encodeId, asSaid, Properties.encodeFor_inVersion]

theorem FilterOptions.toByteFor_inVersion (v : Version) (o : FilterOptions) :
    (o.inVersion v).toByteFor v = o.toByteFor v := by
  cases v with
  | v311 => rfl
  | v5 =>
    have hmod : o.retainHandling % 4 % 4 = o.retainHandling % 4 := by
      apply UInt8.toNat_inj.1
      simp
    change _ + _ + _ + o.retainHandling % 4 % 4 * 16 = _
    rw [hmod]
    rfl

theorem Subscribe.encodeBody_asSaid (p : Subscribe) : p.asSaid.encodeBody = p.encodeBody := by
  simp only [encodeBody, asSaid, List.isEmpty_map, Properties.encodeFor_inVersion, List.map_map,
    Function.comp_def, TopicFilter.inVersion, FilterOptions.toByteFor_inVersion]

namespace Packet

variable {v : Version} {p : Packet} {frame : Bytes}

theorem encodeBody_asSaid (p : Packet) : p.asSaid.encodeBody = p.encodeBody := by
  cases p with
  | connect p => exact p.encodeBody_asSaid
  | publish p => exact p.encodeBody_asSaid
  | subscribe p => exact p.encodeBody_asSaid
  | connAck | ack | subAck | unsubscribe | unsubAck | pingReq | pingResp | disconnect => rfl

/-- What a packet cannot say leaves no trace in its frame. -/
theorem toBytes_asSaid (p : Packet) : p.asSaid.toBytes = p.toBytes := by
  have htype : p.asSaid.packetType = p.packetType := by cases p <;> rfl
  have hflags : p.asSaid.flags = p.flags := by cases p <;> rfl
  rw [toBytes, toBytes, encode, encode, encodeBody_asSaid, htype, hflags]

end Packet

/-! ### What can be said -/

/-- Every CONNECT can be said, in the version that it asks for. -/
theorem Connect.sayable_asSaid (p : Connect) : p.asSaid.Sayable where
  plain hv := by
    have hv : p.version = .v311 := hv
    refine ⟨Properties.inVersion_v311 hv, fun w hw => ?_⟩
    obtain ⟨w', -, rfl⟩ := Option.map_eq_some_iff.1 hw
    rw [hv]
    rfl

theorem Publish.sayable_asSaid {p : Publish} (hdup : p.dup = false)
    (honce : p.qos = .atMostOnce → p.id = none)
    (htracked : p.qos ≠ .atMostOnce → ∃ id, id ≠ 0 ∧ p.id = some id) :
    p.asSaid.Sayable p.version where
  version := rfl
  once hq := ⟨honce hq, hdup⟩
  tracked := htracked
  plain hv := Properties.inVersion_v311 hv

/-- Two bits hold the ways of handling retained messages and one value more. -/
theorem FilterOptions.sayable_inVersion {v : Version} {o : FilterOptions}
    (h : v = .v5 → o.retainHandling % 4 ≠ 3) : (o.inVersion v).Sayable v := by
  cases v with
  | v311 => rfl
  | v5 =>
    have hne : o.retainHandling.toNat % 4 ≠ 3 := fun heq =>
      h rfl (UInt8.toNat_inj.1 (by simpa using heq))
    have hle : (o.retainHandling % 4).toNat ≤ 2 := by
      rw [UInt8.toNat_mod]
      change o.retainHandling.toNat % 4 ≤ 2
      omega
    exact UInt8.le_iff_toNat_le.2 hle

theorem Subscribe.sayable_asSaid {p : Subscribe} (hid : p.id ≠ 0) (hne : p.filters ≠ [])
    (h : p.version = .v5 → ∀ f ∈ p.filters, f.options.retainHandling % 4 ≠ 3) :
    p.asSaid.Sayable p.version where
  version := rfl
  id := hid
  filters := by simpa [asSaid] using hne
  options f hf := by
    obtain ⟨g, hg, rfl⟩ := List.mem_map.1 hf
    exact FilterOptions.sayable_inVersion fun hv => h hv g hg
  plain hv := Properties.inVersion_v311 hv

/-! ## Frames that are read -/

namespace Packet

variable {v : Version} {p : Packet} {frame : Bytes}

/-- A packet whose layout is read is read from its frame. -/
theorem decodeFrame_of_writes (hw : p.encode.Writes p.layout)
    (hr : p.body.Fits →
      (decodeBody ⟨p.packetType, p.flags % 16, p.body.size⟩ v).Reads p.body.bytes [] p)
    (hf : p.toBytes = .ok frame) : decodeFrame frame v = .ok p := by
  obtain ⟨hwritten, hrefused⟩ := hw.toExcept
  by_cases hfits : p.layout.Fits
  · obtain rfl : p.layout.bytes = frame := Except.ok.inj ((hwritten hfits).symm.trans hf)
    obtain ⟨-, htail⟩ := Layout.fits_cons.1 hfits
    obtain ⟨hlength, hbody⟩ := Layout.fits_cons.1 htail
    exact decodeFrame_of_reads (h := p.header) (Layout.length_bytes _).symm hlength (hr hbody)
  · obtain ⟨e, he⟩ := hrefused hfits
    cases he.symm.trans hf

/-- What can be said is read as it was written. -/
theorem Sayable.decodeFrame_of_toBytes (h : p.Sayable v) (hs : p.properties.Sound)
    (hf : p.toBytes = .ok frame) : decodeFrame frame v = .ok p :=
  decodeFrame_of_writes h.writes_encode (h.reads_decodeBody hs) hf

/-- The version plays no part in reading an acknowledgment. -/
theorem decodeFrame_of_toBytes_ack {kind : AckKind} {a : Ack} (h : a.Sayable .v5 kind)
    (hs : a.properties.Sound) (hf : (Packet.ack kind a).toBytes = .ok frame) :
    decodeFrame frame v = .ok (.ack kind a) := by
  have hsay : (Packet.ack kind a).Sayable .v5 := h
  refine decodeFrame_of_writes hsay.writes_encode (fun hfits => ?_) hf
  have hreads := hsay.reads_decodeBody hs hfits
  cases kind <;> exact hreads

end Packet

/-! ### A PUBLISH that is sent again -/

namespace Publish

variable {v : Version} {p : Publish} {frame frame' : Bytes}

/-- The DUP bit stands in the first octet. -/
theorem firstOctet_dup (p : Publish) (h : p.dup = false) (n n' : Nat) :
    (Header.mk .publish p.flags n).firstOctet ||| 0x08 =
      (Header.mk .publish { p with dup := true }.flags n').firstOctet := by
  simp only [Header.firstOctet, flags, h]
  cases p.qos <;> cases p.retain <;> decide

theorem Sayable.dup (h : p.Sayable v) (hq : p.qos ≠ .atMostOnce) :
    { p with dup := true }.Sayable v where
  version := h.version
  once hq' := absurd hq' hq
  tracked := h.tracked
  plain := h.plain

theorem Sayable.toBytes_of_markDup (h : p.Sayable v) (hq : p.qos ≠ .atMostOnce)
    (hdup : p.dup = false) (hf : (Packet.publish p).toBytes = .ok frame)
    (hm : markDup frame = .ok frame') :
    (Packet.publish { p with dup := true }).toBytes = .ok frame' := by
  have hsay : (Packet.publish p).Sayable v := h
  have hsay' : (Packet.publish { p with dup := true }).Sayable v := h.dup hq
  obtain ⟨hwritten, hrefused⟩ := hsay.toBytes
  by_cases hfits : (Packet.publish p).layout.Fits
  · obtain rfl : (Packet.publish p).layout.bytes = frame :=
      Except.ok.inj ((hwritten hfits).symm.trans hf)
    -- only the first octet, which always fits, is another one
    have hfits' : (Packet.publish { p with dup := true }).layout.Fits :=
      Layout.fits_cons.2 ⟨trivial, (Layout.fits_cons.1 hfits).2⟩
    rw [hsay'.toBytes.1 hfits']
    unfold markDup at hm
    rw [Packet.layout, Layout.bytes_cons] at hm
    change (if _ then Except.ok ((_ ||| _) :: _) else _) = _ at hm
    split at hm
    · cases hm
      rw [Packet.layout, Layout.bytes_cons]
      exact congrArg (fun b => Except.ok (b :: _)) (firstOctet_dup p hdup _ _).symm
    · cases hm
  · obtain ⟨e, he⟩ := hrefused hfits
    cases he.symm.trans hf

/-- A PUBLISH that is sent again is read as one with its DUP bit set. -/
theorem Sayable.decodeFrame_of_markDup (h : p.Sayable v) (hs : p.properties.Sound)
    (hq : p.qos ≠ .atMostOnce) (hdup : p.dup = false)
    (hf : (Packet.publish p).toBytes = .ok frame) (hm : markDup frame = .ok frame') :
    Packet.decodeFrame frame' v = .ok (.publish { p with dup := true }) :=
  Packet.Sayable.decodeFrame_of_toBytes (p := .publish { p with dup := true }) (h.dup hq) hs
    (h.toBytes_of_markDup hq hdup hf hm)

/-- A PUBLISH in another version has lost its properties at most. -/
theorem Sayable.convert_inv {new : Version} (h : p.Sayable v) (hs : p.properties.Sound)
    (hf : (Packet.publish p).toBytes = .ok frame) (hc : Retained.convert frame v new = .ok frame') :
    let q := { p with version := new, properties := p.properties.inVersion new }
    q.Sayable new ∧ (Packet.publish q).toBytes = .ok frame' := by
  have hread : Packet.decodeFrame frame v = .ok (.publish p) :=
    Packet.Sayable.decodeFrame_of_toBytes (p := .publish p) h hs hf
  rw [Retained.convert, hread] at hc
  refine ⟨⟨rfl, h.once, h.tracked, Properties.inVersion_v311⟩, ?_⟩
  rw [← hc]
  cases new <;> rfl

end Publish

/-! ### Acknowledgments -/

theorem Ack.inVersion_ofReason (v : Version) (id : UInt16) (reason : Reason) :
    (ofReason id reason).inVersion v = ofReason id (reason.inVersion v) := by
  cases v <;> rfl

theorem AckKind.permits_success (kind : AckKind) : kind.permits .success := by
  cases kind <;> rfl

theorem AckKind.permits_inVersion {kind : AckKind} {reason : Reason} (h : kind.permits reason)
    (v : Version) : kind.permits (reason.inVersion v) := by
  cases v with
  | v311 => exact kind.permits_success
  | v5 => exact h

namespace Retained

variable {kind : AckKind} {id : UInt16} {reason : Reason}

/-- An acknowledgment is read as it was written, whatever the version that it was written in. -/
theorem decodeFrame_ackBytes {w : Version} (hid : id ≠ 0) (h : kind.permits (reason.inVersion w))
    (v : Version) :
    Packet.decodeFrame (ackBytes w kind id reason) v =
      .ok (.ack kind (.ofReason id (reason.inVersion w))) := by
  have hf := ack_eq w kind id reason
  rw [ack, Ack.inVersion_ofReason] at hf
  refine Packet.decodeFrame_of_toBytes_ack ?_ Properties.sound_empty hf
  exact ⟨hid, h, nofun⟩

/-- A PUBREL in another version has lost its reason at most. -/
theorem convert_ackBytes {w : Version} (hid : id ≠ 0)
    (h : AckKind.pubRel.permits (reason.inVersion w)) (old new : Version) :
    convert (ackBytes w .pubRel id reason) old new =
      .ok (ackBytes new .pubRel id (reason.inVersion w)) := by
  rw [convert, decodeFrame_ackBytes hid h]
  exact ack_eq new .pubRel id (reason.inVersion w)

end Retained

end Mqtt
