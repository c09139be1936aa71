import Mqtt.Proofs.Packet.Layout
import Mqtt.Proofs.Packet.Role

/-!
# Packets are read as they were written

The decoder of each type of packet reads the layout of a packet that its version can say, and yields
that packet. So what `Packet.toBytes` writes is what `Packet.decodeFrame` gives back, and writing
fails only where the layout does not fit: `Packet.decodeFrame_toBytes`.
-/

namespace Mqtt

open Decoder

/-! ## PUBLISH -/

namespace Publish

variable {v : Version} {p : Publish}

/-- The four bits of the header hold the quality of service, DUP and RETAIN. -/
theorem bits_flags (p : Publish) : QoS.ofByte? (p.flags % 16 / 2 % 4) = some p.qos ∧
    decide (p.flags % 16 &&& 0x08 ≠ 0) = p.dup ∧ decide (p.flags % 16 &&& 0x01 ≠ 0) = p.retain := by
  unfold flags flagBit
  cases p.qos <;> cases p.dup <;> cases p.retain <;> decide

theorem Sayable.reads_decodeId (h : p.Sayable v) (rest : Bytes) :
    (decodeId p.qos).Reads p.idLayout.bytes rest p.id := by
  by_cases hq : p.qos = .atMostOnce
  · rw [decodeId, if_pos hq, idLayout, (h.once hq).1]
    exact reads_pure none rest
  · obtain ⟨id, hid, hp⟩ := h.tracked hq
    rw [decodeId, if_neg hq, idLayout, hp, Layout.bytes_singleton]
    refine Reads.requireHas (Nat.le_add_left 2 _) _ ?_
    refine (reads_u16 id rest).last ?_
    exact (reads_pure (some id) rest).require (by simpa using hid) _

theorem Sayable.reads_decodeBody (h : p.Sayable v) (hsound : p.properties.Sound)
    (hfits : p.layout.Fits) : (decodeBody (p.flags % 16) v).Reads p.layout.bytes [] p := by
  obtain ⟨hqos, hdup, hretain⟩ := bits_flags p
  obtain ⟨htopic, hfits⟩ := Layout.fits_cons.1 hfits
  obtain ⟨-, hfits⟩ := Layout.fits_append.1 hfits
  obtain ⟨hproperties, -⟩ := Layout.fits_append.1 hfits
  obtain rfl := h.version
  rw [decodeBody, hqos]
  dsimp only
  rw [hdup, hretain]
  refine Reads.require ?_ _ ?_
  · by_cases hq : p.qos = .atMostOnce
    · simp [(h.once hq).2]
    · simp [hq]
  · rw [layout, Layout.bytes_cons, Layout.bytes_append, Layout.bytes_append, Layout.bytes_singleton]
    refine (Field.reads_text htopic _).bind ?_
    refine (h.reads_decodeId _).bind ?_
    refine (Properties.reads_decodeFor p.version hsound h.plain hproperties _).bind ?_
    exact (reads_rest p.payload).bind_pure

end Publish

/-! ## Acknowledgments -/

namespace Ack

variable {v : Version} {kind : AckKind} {a : Ack}

theorem reads_decodeReason {reason : Reason} (h : kind.permits reason) (rest : Bytes) :
    (decodeReason kind).Reads [reason.toByte] rest reason := by
  refine Reads.requireHas (Nat.le_add_left 1 _) _ ?_
  refine (reads_u8 reason.toByte rest).last ?_
  rw [Reason.ofByte?_toByte]
  exact (reads_pure reason rest).require h _

/-- The announced length tells which of the three forms the body has. -/
theorem Sayable.reads_decodeBody (h : a.Sayable v kind) (hsound : a.properties.Sound)
    (hfits : a.layout.Fits) {n : Nat} (hn : n = a.layout.size) :
    (decodeBody kind kind.flags n).Reads a.layout.bytes [] a := by
  obtain ⟨id, reason, ps⟩ := a
  have hid : id ≠ 0 := h.id
  have hsize : n = 2 + (reason.layoutWith ps).size := hn
  rw [layout, Layout.bytes_cons]
  refine Reads.require (by simp) _ ?_
  refine (reads_has_of_le (n := 2) (by simp [Part.bytes])).look ?_
  refine Reads.require (by simp [hsize]) _ ?_
  refine (reads_u16 id _).bind ?_
  refine Reads.require (by simpa using hid) _ ?_
  have htail : (reason.layoutWith ps).Fits := (Layout.fits_cons.1 hfits).2
  rw [Reason.layoutWith] at hsize htail ⊢
  by_cases hshort : reason = .success ∧ ps.isEmpty
  · rw [if_pos hshort] at hsize ⊢
    rw [if_pos (show n = 2 from hsize), hshort.1, Properties.isEmpty_iff.1 hshort.2]
    exact reads_pure _ []
  · rw [if_neg hshort] at hsize htail ⊢
    have hlong : n = 3 + (if ps.isEmpty then [] else ps.layout : Layout).size := by
      rw [hsize, Layout.size_cons, ← Nat.add_assoc]
      rfl
    rw [if_neg (by omega)]
    refine (reads_decodeReason h.reason _).bind ?_
    by_cases hempty : ps.isEmpty
    · rw [if_pos hempty] at hlong ⊢
      have hn3 : ¬3 < n := by simp [hlong]
      rw [if_neg hn3, Properties.isEmpty_iff.1 hempty]
      exact (reads_pure Properties.empty []).bind_pure
    · rw [if_neg hempty] at hlong htail ⊢
      have hn3 : 3 < n := by
        have hpos := ps.size_layout_pos
        omega
      rw [if_pos hn3]
      exact (Properties.reads_decode hsound (Layout.fits_cons.1 htail).2 []).bind_pure

end Ack

/-! ## SUBSCRIBE and UNSUBSCRIBE -/

/-- The options of a filter are found again in their octet. -/
theorem FilterOptions.Sayable.ofByteFor_toByteFor {v : Version} {o : FilterOptions}
    (h : o.Sayable v) : ofByteFor v (o.toByteFor v) = .ok o := by
  cases v with
  | v311 =>
    have ho : o = { qos := o.qos } := h
    rw [ho]
    simp only [ofByteFor, toByteFor, QoS.ofByte?_toByte]
  | v5 =>
    obtain ⟨qos, noLocal, retainAsPublished, retainHandling⟩ := o
    have hle : retainHandling.toNat ≤ 2 := UInt8.le_iff_toNat_le.1 h
    have hways : retainHandling = 0 ∨ retainHandling = 1 ∨ retainHandling = 2 := by
      simp only [← UInt8.toNat_inj, UInt8.reduceToNat]
      omega
    rcases hways with rfl | rfl | rfl <;> cases qos <;> cases noLocal <;>
      cases retainAsPublished <;> decide

namespace Subscribe

variable {v : Version} {p : Subscribe}

theorem reads_decodeFilter {f : TopicFilter} (hfits : (f.layout v).Fits) (h : f.options.Sayable v)
    (rest : Bytes) : (decodeFilter v).Reads (f.layout v).bytes rest f := by
  rw [TopicFilter.layout, Layout.bytes_cons, Layout.bytes_singleton]
  refine (Field.reads_text (Layout.fits_cons.1 hfits).1 _).bind ?_
  refine Reads.requireHas (Nat.le_add_left 1 _) _ ?_
  refine (reads_u8 _ rest).last ?_
  rw [h.ofByteFor_toByteFor]
  exact reads_pure f rest

theorem bytes_filter_ne_nil (v : Version) (f : TopicFilter) : (f.layout v).bytes ≠ [] := by
  rw [← List.length_pos_iff, Layout.length_bytes, TopicFilter.layout, Layout.size_cons, Part.size,
    Field.textSize]
  omega

theorem Sayable.reads_decodeBody (h : p.Sayable v) (hsound : p.properties.Sound)
    (hfits : p.layout.Fits) : (decodeBody 0x02 v).Reads p.layout.bytes [] p := by
  obtain ⟨hhead, hfilters⟩ := Layout.fits_append.1 hfits
  obtain ⟨-, hproperties⟩ := Layout.fits_cons.1 hhead
  obtain rfl := h.version
  have hne : ∀ f ∈ p.filters, (f.layout p.version).bytes ≠ [] := fun f _ =>
    bytes_filter_ne_nil p.version f
  have hitems := reads_items (fun f hf rest =>
    reads_decodeFilter (Layout.fits_flatMap.1 hfilters f hf) (h.options f hf) rest) hne
  have hthere : 1 ≤ (p.filters.flatMap fun f => (f.layout p.version).bytes).length :=
    Nat.le_trans (List.length_pos_iff.2 h.filters) (length_le_length_flatMap hne)
  rw [layout, Layout.bytes_append, Layout.bytes_cons, List.append_assoc, Layout.bytes_flatMap]
  refine Reads.require rfl _ ?_
  refine Reads.requireHas (by simp [Part.bytes]) _ ?_
  refine (reads_u16 p.id _).bind ?_
  refine Reads.require (by simpa using h.id) _ ?_
  refine (Properties.reads_decodeFor p.version hsound h.plain hproperties _).bind ?_
  refine Reads.requireHas (by rwa [List.append_nil]) _ ?_
  exact hitems.bind_pure

end Subscribe

namespace Unsubscribe

variable {v : Version} {p : Unsubscribe}

theorem Sayable.reads_decodeBody (h : p.Sayable v) (hsound : p.properties.Sound)
    (hfits : p.layout.Fits) : (decodeBody 0x02 v).Reads p.layout.bytes [] p := by
  obtain ⟨hhead, hfilters⟩ := Layout.fits_append.1 hfits
  obtain ⟨-, hproperties⟩ := Layout.fits_cons.1 hhead
  obtain rfl := h.version
  have hitems : (items Field.text).Reads (p.filters.flatMap fun s => (Part.text s).bytes) []
      p.filters :=
    reads_items (fun s hs rest =>
      Field.reads_text (Layout.fits_singleton.1 (Layout.fits_flatMap.1 hfilters s hs)) rest)
      fun s _ => by simp [Part.bytes, Field.prefixed, Bytes.ofWord]
  rw [layout, Layout.bytes_append, Layout.bytes_cons, List.append_assoc, Layout.bytes_flatMap]
  simp only [Layout.bytes_singleton]
  refine Reads.require rfl _ ?_
  refine Reads.requireHas (by simp [Part.bytes]) _ ?_
  refine (reads_u16 p.id _).bind ?_
  refine (Properties.reads_decodeFor p.version hsound h.plain hproperties _).bind ?_
  refine hitems.last ?_
  exact (reads_pure p []).require (by simpa using h.filters) _

end Unsubscribe

/-! ## SUBACK and UNSUBACK -/

namespace FilterAck

variable {v : Version} {p : FilterAck}

theorem reads_decodeReason {r : Reason} (h : v = .v311 → isGrant r.toByte) (rest : Bytes) :
    (decodeReason v).Reads [r.toByte] rest r := by
  refine (reads_u8 r.toByte rest).last ?_
  refine Reads.require ?_ _ ?_
  · cases v with
    | v311 => simpa using h rfl
    | v5 => rfl
  · rw [Reason.ofByte?_toByte]
    exact reads_pure r rest

theorem reads_reasons {reasons : List Reason} (h : v = .v311 → ∀ r ∈ reasons, isGrant r.toByte) :
    (items (decodeReason v)).Reads (reasons.map Reason.toByte) [] reasons := by
  rw [List.map_eq_flatMap]
  exact reads_items (fun r hr => reads_decodeReason fun hv => h hv r hr) fun r _ => by simp

theorem SayableSubAck.reads_decodeSubAck (h : p.SayableSubAck v) (hsound : p.properties.Sound)
    (hfits : p.layoutSubAck.Fits) : (decodeSubAck v).Reads p.layoutSubAck.bytes [] p := by
  obtain ⟨hhead, -⟩ := Layout.fits_append.1 hfits
  obtain ⟨-, hproperties⟩ := Layout.fits_cons.1 hhead
  obtain rfl := h.version
  rw [layoutSubAck, Layout.bytes_append, Layout.bytes_cons, List.append_assoc,
    Layout.bytes_singleton]
  refine Reads.requireHas (by simp [Part.bytes]) _ ?_
  refine (reads_u16 p.id _).bind ?_
  refine (Properties.reads_decodeFor p.version hsound (fun hv => (h.plain hv).1)
    hproperties _).bind ?_
  refine (reads_reasons fun hv => (h.plain hv).2).last ?_
  exact (reads_pure p []).require (by simpa using h.reasons) _

theorem SayableUnsubAck.reads_decodeUnsubAck (h : p.SayableUnsubAck v)
    (hsound : p.properties.Sound) (hfits : p.layoutUnsubAck.Fits) :
    (decodeUnsubAck v).Reads p.layoutUnsubAck.bytes [] p := by
  obtain ⟨id, reasons, ps, version⟩ := p
  obtain rfl : version = v := h.version
  rw [layoutUnsubAck, Layout.bytes_cons]
  refine Reads.requireHas (by simp [Part.bytes]) _ ?_
  refine (reads_u16 id _).bind ?_
  cases version with
  | v311 =>
    obtain ⟨rfl, rfl⟩ : ps = .empty ∧ reasons = [] := h.plain rfl
    exact reads_pure _ []
  | v5 =>
    have htail := (Layout.fits_cons.1 hfits).2
    rw [Layout.bytes_append, Layout.bytes_singleton]
    refine (Properties.reads_decode hsound (Layout.fits_append.1 htail).1 _).bind ?_
    have hreasons : (items (decodeReason .v5)).Reads (reasons.map Reason.toByte) [] reasons :=
      reads_reasons fun hv => by cases hv
    exact hreasons.bind_pure

end FilterAck

/-! ## CONNECT -/

theorem Will.sound_properties (w : Will) : w.properties.Sound := by
  rw [properties]
  cases w.delay with
  | none => exact Properties.sound_empty
  | some d => exact Properties.sound_empty.add (p := .willDelayInterval) (v := .long d) rfl

theorem Will.long?_properties (w : Will) : w.properties.long? .willDelayInterval = w.delay := by
  rw [properties]
  cases w.delay <;> rfl

theorem Will.reads_decode {v : Version} {w : Will} (hplain : v = .v311 → w.delay = none)
    (hfits : (w.layout v).Fits) (rest : Bytes) :
    (decode v w.qos.toByte w.retain).Reads (w.layout v).bytes rest w := by
  obtain ⟨hproperties, hfields⟩ := Layout.fits_append.1 hfits
  obtain ⟨htopic, hpayload⟩ := Layout.fits_cons.1 hfields
  have hempty : v = .v311 → w.properties = .empty := fun hv => by rw [properties, hplain hv]
  rw [layout, Layout.bytes_append, Layout.bytes_cons, Layout.bytes_singleton]
  refine (Properties.reads_decodeFor v w.sound_properties hempty hproperties _).bind ?_
  refine (Field.reads_text htopic _).bind ?_
  refine (Field.reads_binary (Layout.fits_singleton.1 hpayload) rest).last ?_
  rw [QoS.ofByte?_toByte, w.long?_properties]
  exact reads_pure w rest

namespace Connect

/-- The flags without a will. -/
theorem bits_without_will (cleanStart username password : Bool) :
    let f := flagBit cleanStart 0x02 + 0 + flagBit username 0x80 + flagBit password 0x40
    f &&& 0x01 = 0 ∧ decide (f &&& 0x02 ≠ 0) = cleanStart ∧ decide (f &&& 0x04 ≠ 0) = false ∧
      decide (f &&& 0x80 ≠ 0) = username ∧ decide (f &&& 0x40 ≠ 0) = password := by
  cases cleanStart <;> cases username <;> cases password <;> decide

/-- The flags with a will. -/
theorem bits_with_will (cleanStart username password retain : Bool) (qos : QoS) :
    let f := flagBit cleanStart 0x02 + (0x04 + qos.toByte * 8 + flagBit retain 0x20) +
      flagBit username 0x80 + flagBit password 0x40
    (f &&& 0x01 = 0 ∧ decide (f &&& 0x02 ≠ 0) = cleanStart ∧ decide (f &&& 0x04 ≠ 0) = true ∧
      decide (f &&& 0x80 ≠ 0) = username ∧ decide (f &&& 0x40 ≠ 0) = password) ∧
    f / 8 % 4 = qos.toByte ∧ decide (f &&& 0x20 ≠ 0) = retain := by
  cases cleanStart <;> cases username <;> cases password <;> cases retain <;> cases qos <;> decide

/-- The flags tell which of the optional fields are there. -/
theorem bits_flags (p : Connect) : (p.flags &&& 0x01 = 0 ∧
    decide (p.flags &&& 0x02 ≠ 0) = p.cleanStart ∧ decide (p.flags &&& 0x04 ≠ 0) = p.will.isSome ∧
    decide (p.flags &&& 0x80 ≠ 0) = p.username.isSome ∧
    decide (p.flags &&& 0x40 ≠ 0) = p.password.isSome) ∧
    ∀ w, p.will = some w →
      p.flags / 8 % 4 = w.qos.toByte ∧ decide (p.flags &&& 0x20 ≠ 0) = w.retain := by
  unfold flags
  cases hw : p.will with
  | none => exact ⟨bits_without_will _ _ _, nofun⟩
  | some w =>
    obtain ⟨hbits, hwill⟩ :=
      bits_with_will p.cleanStart p.username.isSome p.password.isSome w.retain w.qos
    refine ⟨hbits, fun w' hw' => ?_⟩
    cases hw'
    exact hwill

theorem Sayable.reads_decodeBody {p : Connect} (h : p.Sayable) (hsound : p.properties.Sound)
    (hfits : p.layout.Fits) : decodeBody.Reads p.layout.bytes [] p := by
  obtain ⟨⟨hreserved, hclean, hwill, husername, hpassword⟩, hofWill⟩ := bits_flags p
  obtain ⟨hname, hfits⟩ := Layout.fits_cons.1 hfits
  obtain ⟨-, hfits⟩ := Layout.fits_cons.1 hfits
  obtain ⟨hproperties, hfits⟩ := Layout.fits_append.1 hfits
  obtain ⟨hclient, hfits⟩ := Layout.fits_cons.1 hfits
  obtain ⟨hfitsWill, hfits⟩ := Layout.fits_append.1 hfits
  obtain ⟨hfitsUser, hfitsPass⟩ := Layout.fits_append.1 hfits
  rw [layout, Layout.bytes_cons, Layout.bytes_cons, Layout.bytes_append, Layout.bytes_cons,
    Layout.bytes_append, Layout.bytes_append]
  refine (Field.reads_text hname _).bind ?_
  refine Reads.require (by simp) _ ?_
  refine Reads.requireHas (by simp [Part.bytes]) _ ?_
  refine (reads_u8 p.version.toByte _).bind ?_
  rw [Version.ofByte?_toByte]
  dsimp only
  refine (reads_u8 p.flags _).bind ?_
  rw [hclean, hwill, husername, hpassword]
  refine Reads.require (by simp [hreserved]) _ ?_
  refine (reads_u16 p.keepAlive _).bind ?_
  refine (Properties.reads_decodeFor p.version hsound (fun hv => (h.plain hv).1)
    hproperties _).bind ?_
  refine (Field.reads_text hclient _).bind ?_
  have hreadWill : ∀ w, p.will = some w → ∀ rest,
      (Will.decode p.version (p.flags / 8 % 4) (p.flags &&& 0x20 ≠ 0)).Reads
        (w.layout p.version).bytes rest w := by
    intro w hw rest
    obtain ⟨hqos, hretain⟩ := hofWill w hw
    rw [hqos, hretain]
    exact Will.reads_decode (fun hv => (h.plain hv).2 w hw)
      (Layout.fits_getD_map.1 hfitsWill w hw) rest
  have hreadUser : ∀ s, p.username = some s → ∀ rest,
      Field.text.Reads (Layout.bytes [.text s]) rest s := by
    intro s hs rest
    rw [Layout.bytes_singleton]
    exact Field.reads_text (Layout.fits_singleton.1 (Layout.fits_getD_map.1 hfitsUser s hs)) rest
  have hreadPass : ∀ b, p.password = some b → ∀ rest,
      Field.binary.Reads (Layout.bytes [.binary b]) rest b := by
    intro b hb rest
    rw [Layout.bytes_singleton]
    exact Field.reads_binary (Layout.fits_singleton.1 (Layout.fits_getD_map.1 hfitsPass b hb)) rest
  refine (reads_optionally rfl fun w hw => hreadWill w hw _).bind ?_
  refine (reads_optionally rfl fun s hs => hreadUser s hs _).bind ?_
  exact (reads_optionally rfl fun b hb => hreadPass b hb _).bind_pure

end Connect

/-! ## CONNACK and DISCONNECT -/

namespace ConnAck

variable {v : Version} {p : ConnAck}

theorem Sayable.reads_decodeOutcome (h : p.Sayable v) (hsound : p.properties.Sound)
    (hfits : p.outcomeLayout.Fits) :
    (decodeOutcome v).Reads p.outcomeLayout.bytes [] (p.reason, p.properties) := by
  obtain rfl := h.version
  rw [outcomeLayout] at hfits ⊢
  cases hv : p.version with
  | v311 =>
    obtain ⟨hempty, code, hcode⟩ := h.plain hv
    rw [hempty]
    dsimp only
    rw [Reason.toConnectReturn_of_ofConnectReturn? hcode, Layout.bytes_singleton]
    refine (reads_u8 code []).last ?_
    rw [hcode]
    exact reads_pure _ []
  | v5 =>
    rw [hv] at hfits
    dsimp only at hfits ⊢
    rw [Layout.bytes_cons]
    refine (reads_u8 p.reason.toByte _).bind ?_
    rw [Reason.ofByte?_toByte]
    exact (Properties.reads_decodeIfAny hsound (Layout.fits_cons.1 hfits).2).bind_pure

theorem two_le_length_layout (p : ConnAck) : 2 ≤ p.layout.bytes.length := by
  have houtcome : 1 ≤ p.outcomeLayout.size := by
    rw [outcomeLayout]
    cases p.version with
    | v311 => exact Nat.le_refl 1
    | v5 => exact Nat.le_add_right 1 _
  rw [Layout.length_bytes, layout, Layout.size_cons, Part.size]
  exact Nat.add_le_add (Nat.le_refl 1) houtcome

theorem Sayable.reads_decodeBody (h : p.Sayable v) (hsound : p.properties.Sound)
    (hfits : p.layout.Fits) : (decodeBody v).Reads p.layout.bytes [] p := by
  have hbits : ∀ present : Bool, flagBit present 0x01 &&& 0xFE = 0 ∧
      decide (flagBit present 0x01 &&& 0x01 ≠ 0) = present := by decide
  obtain ⟨hreserved, hpresent⟩ := hbits p.sessionPresent
  have houtcome := h.reads_decodeOutcome hsound (Layout.fits_cons.1 hfits).2
  refine Reads.requireHas (by simpa using two_le_length_layout p) _ ?_
  rw [layout, Layout.bytes_cons]
  refine (reads_u8 _ _).bind ?_
  refine Reads.require (by simp [hreserved]) _ ?_
  dsimp only
  rw [hpresent]
  refine houtcome.last ?_
  refine Reads.require ?_ _ ?_
  · cases hp : p.sessionPresent with
    | false => rfl
    | true => simp [h.present hp]
  · obtain rfl := h.version
    exact reads_pure p []

end ConnAck

theorem Disconnect.Sayable.reads_decodeBody {v : Version} {p : Disconnect} (h : p.Sayable v)
    (hsound : p.properties.Sound) (hfits : p.layout.Fits) :
    (decodeBody v).Reads p.layout.bytes [] p := by
  obtain ⟨reason, ps, version⟩ := p
  obtain rfl : version = v := h.version
  cases version with
  | v311 =>
    obtain ⟨rfl, rfl⟩ : reason = .success ∧ ps = .empty := h.plain rfl
    exact reads_pure _ []
  | v5 =>
    have hlayout : layout ⟨reason, ps, .v5⟩ = reason.layoutWith ps := rfl
    rw [hlayout] at hfits ⊢
    rw [Reason.layoutWith] at hfits ⊢
    by_cases hshort : reason = .success ∧ ps.isEmpty
    · rw [if_pos hshort, hshort.1, Properties.isEmpty_iff.1 hshort.2]
      exact (reads_atEnd []).look (reads_pure _ [])
    · rw [if_neg hshort] at hfits ⊢
      rw [Layout.bytes_cons]
      refine (reads_atEnd _).look ?_
      refine (reads_u8 reason.toByte _).bind ?_
      rw [Reason.ofByte?_toByte]
      by_cases hempty : ps.isEmpty
      · rw [if_pos hempty, Properties.isEmpty_iff.1 hempty]
        exact Properties.reads_decodeIfAny_empty.bind_pure
      · rw [if_neg hempty] at hfits ⊢
        exact (Properties.reads_decodeIfAny hsound (Layout.fits_cons.1 hfits).2).bind_pure

/-! ## Whole packets -/

namespace Packet

variable {v : Version} {p : Packet}

theorem Sayable.reads_decodeBody (h : p.Sayable v) (hsound : p.properties.Sound)
    (hfits : p.body.Fits) :
    (decodeBody ⟨p.packetType, p.flags % 16, p.body.size⟩ v).Reads p.body.bytes [] p := by
  cases p with
  | connect p => exact (Connect.Sayable.reads_decodeBody h hsound hfits).map connect
  | connAck p => exact (ConnAck.Sayable.reads_decodeBody h hsound hfits).map connAck
  | publish p => exact (Publish.Sayable.reads_decodeBody h hsound hfits).map publish
  | ack kind a =>
    have hbody := Ack.Sayable.reads_decodeBody h hsound hfits rfl
    cases kind with
    | pubAck => exact hbody.map (ack .pubAck)
    | pubRec => exact hbody.map (ack .pubRec)
    | pubRel => exact hbody.map (ack .pubRel)
    | pubComp => exact hbody.map (ack .pubComp)
  | subscribe p => exact (Subscribe.Sayable.reads_decodeBody h hsound hfits).map subscribe
  | subAck p => exact (FilterAck.SayableSubAck.reads_decodeSubAck h hsound hfits).map subAck
  | unsubscribe p => exact (Unsubscribe.Sayable.reads_decodeBody h hsound hfits).map unsubscribe
  | unsubAck p => exact (FilterAck.SayableUnsubAck.reads_decodeUnsubAck h hsound hfits).map unsubAck
  | pingReq => exact reads_pure pingReq []
  | pingResp => exact reads_pure pingResp []
  | disconnect p => exact (Disconnect.Sayable.reads_decodeBody h hsound hfits).map disconnect

/-- A frame with a header that tells its length is read as its body is. -/
theorem decodeFrame_of_reads {h : Header} {b : Bytes} (hlen : h.length = b.length)
    (hmax : h.length ≤ VarInt.max)
    (hbody : (decodeBody ⟨h.packet, h.flags % 16, h.length⟩ v).Reads b [] p) :
    decodeFrame (h.firstOctet :: (VarInt.digits 3 h.length ++ b)) v = .ok p := by
  have hdrop : (h.firstOctet :: (VarInt.digits 3 h.length ++ b)).drop
      (1 + (VarInt.digits 3 h.length).length) = b := by
    rw [Nat.add_comm, List.drop_succ_cons, List.drop_left]
  rw [decodeFrame, Header.peek?_firstOctet h hmax b]
  change (if (List.drop _ _).length = h.length then _ else _) = _
  rw [hdrop, if_pos hlen.symm]
  exact hbody.runOn

/-- A packet that a version can say, with properties that were built, is written as its layout and
read back as it was. Only where its layout does not fit, because a text or binary field is longer
than 65535 octets or because the number of a property, the length of the properties or that of the
body is greater than 268435455, it is refused. -/
theorem decodeFrame_toBytes (h : p.Sayable v) (hbuilt : p.properties.Built) :
    (p.layout.Fits ∧ p.toBytes = .ok p.layout.bytes ∧ decodeFrame p.layout.bytes v = .ok p) ∨
      (¬p.layout.Fits ∧ ∃ e, p.toBytes = .error e) := by
  obtain ⟨hwritten, hrefused⟩ := h.toBytes
  by_cases hfits : p.layout.Fits
  · obtain ⟨-, htail⟩ := Layout.fits_cons.1 hfits
    obtain ⟨hlength, hbody⟩ := Layout.fits_cons.1 htail
    refine .inl ⟨hfits, hwritten hfits, ?_⟩
    exact decodeFrame_of_reads (h := p.header) (Layout.length_bytes _).symm hlength
      (h.reads_decodeBody hbuilt.sound hbody)
  · exact .inr ⟨hfits, hrefused hfits⟩

/-- A CONNECT of v5.0 with all that it can have but a password. -/
def greeting : Packet :=
  .connect {
    version := .v5, clientId := "c", keepAlive := 60, cleanStart := false
    username := some "é", password := none
    will := some ⟨"w", [1, 2], .exactlyOnce, true, some 9⟩
    properties := ((Properties.empty.addUser "a" "b").setSessionExpiry 7).addUser "a" "c" }

/-- The frame of `greeting`. -/
def greetingFrame : Bytes :=
  [16, 50, 0, 4, 77, 81, 84, 84, 5, 180, 0, 60,
    19, 38, 0, 1, 97, 0, 1, 98, 17, 0, 0, 0, 7, 38, 0, 1, 97, 0, 1, 99, 0, 1, 99,
    5, 24, 0, 0, 0, 9, 0, 1, 119, 0, 2, 1, 2, 0, 2, 195, 169]

/-- Whatever the version that its frame is read in, it is read in its own. -/
theorem decodeFrame_toBytes_greeting :
    greeting.Sayable .v311 ∧ greeting.properties.Built ∧ greeting.toBytes = .ok greetingFrame ∧
      decodeFrame greetingFrame .v311 = .ok greeting := by
  have hsay : greeting.Sayable .v311 := ⟨nofun⟩
  have hbuilt : greeting.properties.Built :=
    .addUser _ _ (.setSessionExpiry _ (.addUser _ _ .empty))
  have hfits : greeting.layout.Fits := by decide
  have hbytes : greeting.layout.bytes = greetingFrame := by decide
  have h := (decodeFrame_toBytes hsay hbuilt).resolve_right fun h => h.1 hfits
  rw [hbytes] at h
  exact ⟨hsay, hbuilt, h.2⟩

end Packet

end Mqtt
