import Mqtt.Proofs.Packet.Acceptance
import Mqtt.Proofs.Packet.Stream
import Mqtt.Proofs.Property.Yield

/-!
# Packets that were read

A frame need not be the one that its packet is written as: an acknowledgment may spell out what
could be left out, numbers may take more octets than they need, a CONNECT may have bits and will
properties that nothing is made of, and a CONNACK may come without properties.

`Packet.Restates` says of a packet that it can be said again, and how long it then is. What the
decoder of each type yields is of this kind (`Packet.yields_decodeBody`), so that a packet that was
read can be written, and the frame that is written is read as the same packet:
`Packet.normal_of_decodeFrame`.
-/

namespace Mqtt

open Decoder

/-! ## PUBLISH -/

namespace Publish

/-- A message has an identifier above QoS 0, and only there. -/
theorem yields_decodeId (qos : QoS) : (decodeId qos).Yields fun b id =>
    (qos = .atMostOnce → id = none) ∧ (qos ≠ .atMostOnce → ∃ i, i ≠ 0 ∧ id = some i) ∧
      ∀ p : Publish, p.id = id → p.idLayout.Within b := by
  unfold decodeId
  split_ifs with hq
  · refine yields_pure ⟨fun _ => rfl, fun h => absurd hq h, fun p hp => ?_⟩
    rw [idLayout, hp]
    exact Layout.within_nil
  · refine yields_requireHas (within_u16.bind fun b id hb => yields_require fun hid => ?_)
    have hid : id ≠ 0 := by simpa using hid
    refine yields_pure ⟨fun h => absurd h hq, fun _ => ⟨id, hid, rfl⟩, fun p hp => ?_⟩
    rw [idLayout, hp, List.append_nil]
    exact hb

theorem yields_decodeBody (flags : UInt8) (v : Version) : (decodeBody flags v).Yields fun b p =>
    p.Sayable v ∧ p.properties.Sound ∧ p.layout.Within b := by
  unfold decodeBody
  split
  · exact yields_refuse _
  · rename_i qos _
    refine yields_require fun hdup => within_text.bind fun b topic htopic =>
      (yields_decodeId qos).bind fun b' id ⟨honce, htracked, hid⟩ =>
      (Properties.yields_decodeFor v).bind fun b'' ps ⟨hsound, hplain, hps⟩ =>
      yields_rest.bind_pure fun b''' payload hpayload => ?_
    refine ⟨⟨rfl, fun hq => ⟨honce hq, ?_⟩, htracked, hplain⟩, hsound, ?_⟩
    · simpa [show qos = .atMostOnce from hq] using hdup
    · exact htopic.cons ((hid _ rfl).append (hps.append (hpayload ▸ Layout.within_octets payload)))

end Publish

/-! ## Acknowledgments -/

/-- A reason and properties in their shortest form are no longer than those that were read. -/
theorem Reason.within_layoutWith {ps : Properties} {b : Bytes}
    (h : b = [] ∧ ps = .empty ∨ ps.layout.Within b) (r : Reason) (code : UInt8) :
    (r.layoutWith ps).Within (code :: b) := by
  have hfull : Layout.Within (.octets [r.toByte] :: if ps.isEmpty then [] else ps.layout)
      ([code] ++ b) := by
    refine Layout.Within.cons (Layout.within_singleton.2 ⟨trivial, Nat.le_refl 1⟩) ?_
    split_ifs with hempty
    · exact Layout.within_nil
    · rcases h with ⟨-, rfl⟩ | hwithin
      · exact absurd (Properties.isEmpty_iff.2 rfl) hempty
      · exact hwithin
  rw [layoutWith]
  by_cases hshort : r = .success ∧ ps.isEmpty
  · rw [if_pos hshort]
    exact Layout.within_nil
  · rw [if_neg hshort]
    exact hfull

namespace Ack

theorem yields_decodeReason (kind : AckKind) : (decodeReason kind).Yields fun b r =>
    (∃ code, b = [code]) ∧ kind.permits r := by
  refine yields_requireHas (yields_u8.bind fun b code hb => ?_)
  split
  · exact yields_refuse _
  · refine yields_require fun hpermits => yields_pure ⟨⟨code, ?_⟩, hpermits⟩
    rw [hb, List.append_nil]

/-- An acknowledgment is read alike in every version. -/
theorem yields_decodeBody (kind : AckKind) (flags : UInt8) (n : Nat) :
    (decodeBody kind flags n).Yields fun b a =>
      a.Sayable .v5 kind ∧ a.properties.Sound ∧ a.layout.Within b := by
  refine yields_require fun _ => yields_has fun _ => yields_require fun _ =>
    within_u16.bind fun b id hb => yields_require fun hid => ?_
  replace hid : id ≠ 0 := by simpa using hid
  by_cases hshort : n = 2
  · rw [if_pos hshort]
    refine yields_pure ⟨⟨hid, kind.permits_success, nofun⟩, Properties.sound_empty, ?_⟩
    exact hb.cons Layout.within_nil
  · rw [if_neg hshort]
    refine (yields_decodeReason kind).bind fun b' r ⟨⟨code, hcode⟩, hpermits⟩ => ?_
    subst hcode
    have hlong : ∀ {ps : Properties} {b'' : Bytes}, ps.Sound →
        (b'' = [] ∧ ps = .empty ∨ ps.layout.Within b'') →
        (Ack.mk id r ps).Sayable .v5 kind ∧ ps.Sound ∧
          (Ack.mk id r ps).layout.Within (b ++ ([code] ++ b'')) := fun hsound hps =>
      ⟨⟨hid, hpermits, nofun⟩, hsound, hb.cons (r.within_layoutWith hps code)⟩
    by_cases hmore : 3 < n
    · simp only [hmore, ↓reduceIte]
      exact Properties.yields_decode.bind_pure fun b'' ps ⟨hsound, hps⟩ => hlong hsound (.inr hps)
    · simp only [hmore, ↓reduceIte]
      exact yields_pure (hlong Properties.sound_empty (.inl ⟨rfl, rfl⟩))

end Ack

/-! ## SUBSCRIBE and UNSUBSCRIBE -/

/-- The fourth way of handling retained messages is refused. -/
theorem FilterOptions.sayable_of_ofByteFor {v : Version} {b : UInt8} {o : FilterOptions}
    (h : ofByteFor v b = .ok o) : o.Sayable v := by
  cases v with
  | v311 =>
    rw [ofByteFor] at h
    split at h
    · cases h
    · cases h
      rfl
  | v5 =>
    rw [ofByteFor, ofByte] at h
    split_ifs at h with _ hways
    split at h
    · cases h
    · cases h
      have hne : b.toNat / 16 % 4 ≠ 3 := fun heq =>
        hways (UInt8.toNat_inj.1 (by simpa using heq))
      refine UInt8.le_iff_toNat_le.2 ?_
      simp only [UInt8.toNat_mod, UInt8.toNat_div, UInt8.reduceToNat]
      omega

namespace Subscribe

theorem yields_decodeFilter (v : Version) : (decodeFilter v).Yields fun b f =>
    f.options.Sayable v ∧ (f.layout v).Within b := by
  refine within_text.bind fun b s hs => yields_requireHas (yields_u8.bind fun b' code hcode => ?_)
  split
  · exact yields_refuse _
  · rename_i o ho
    refine yields_pure ⟨FilterOptions.sayable_of_ofByteFor ho, ?_⟩
    rw [List.append_nil, hcode]
    exact hs.cons (Layout.within_singleton.2 ⟨trivial, Nat.le_refl 1⟩)

theorem yields_decodeBody (flags : UInt8) (v : Version) : (decodeBody flags v).Yields fun b p =>
    p.Sayable v ∧ p.properties.Sound ∧ p.layout.Within b := by
  refine yields_require fun _ => yields_requireHas (within_u16.bind fun b id hb =>
    yields_require fun hid => (Properties.yields_decodeFor v).bind
      fun b' ps ⟨hsound, hplain, hps⟩ => (yields_decodeFilter v).requireItems
        fun b'' filters hne hfilters => yields_pure ?_)
  have hoptions : ∀ f ∈ filters, f.options.Sayable v := fun f hf =>
    (hfilters.mem f hf).elim fun _ h => h.1
  rw [List.append_nil]
  exact ⟨⟨rfl, by simpa using hid, hne, hoptions, hplain⟩, hsound,
    hb.cons (hps.append (Layout.within_flatMap (hfilters.imp fun _ _ h => h.2)))⟩

end Subscribe

theorem Unsubscribe.yields_decodeBody (flags : UInt8) (v : Version) :
    (decodeBody flags v).Yields fun b p =>
      p.Sayable v ∧ p.properties.Sound ∧ p.layout.Within b := by
  refine yields_require fun _ => yields_requireHas (within_u16.bind fun b id hb =>
    (Properties.yields_decodeFor v).bind fun b' ps ⟨hsound, hplain, hps⟩ =>
    within_text.items.bind fun b'' filters hfilters => yields_require fun hne => yields_pure ?_)
  rw [List.append_nil]
  exact ⟨⟨rfl, by simpa using hne, hplain⟩, hsound,
    hb.cons (hps.append (Layout.within_flatMap hfilters))⟩

/-! ## SUBACK and UNSUBACK -/

namespace FilterAck

theorem yields_decodeReason (v : Version) : (decodeReason v).Yields fun b r =>
    b = [r.toByte] ∧ (v = .v311 → isGrant r.toByte) := by
  refine yields_u8.bind fun b code hb => yields_require fun hgrant => ?_
  split
  · exact yields_refuse _
  · rename_i r hr
    have hcode : r.toByte = code := toByte_of_find? hr
    rw [← hcode] at hb hgrant
    refine yields_pure ⟨by rw [hb, List.append_nil], fun hv => ?_⟩
    simpa [hv] using hgrant

/-- Each reason is an octet. -/
theorem yields_reasons (v : Version) : (items (decodeReason v)).Yields fun b reasons =>
    b = reasons.map Reason.toByte ∧ (v = .v311 → ∀ r ∈ reasons, isGrant r.toByte) :=
  (yields_decodeReason v).items.imp fun _ _ h =>
    ⟨(h.imp fun _ _ hr => hr.1).eq_map, fun hv r hr => (h.mem r hr).elim fun _ hr => hr.2 hv⟩

theorem yields_decodeSubAck (v : Version) : (decodeSubAck v).Yields fun b p =>
    p.SayableSubAck v ∧ p.properties.Sound ∧ p.layoutSubAck.Within b := by
  refine yields_requireHas (within_u16.bind fun b id hb =>
    (Properties.yields_decodeFor v).bind fun b' ps ⟨hsound, hplain, hps⟩ =>
    (yields_reasons v).bind fun b'' reasons ⟨hreasons, hgrant⟩ =>
    yields_require fun hne => yields_pure ?_)
  rw [List.append_nil, hreasons]
  exact ⟨⟨rfl, by simpa using hne, fun hv => ⟨hplain hv, hgrant hv⟩⟩, hsound,
    hb.cons (hps.append (Layout.within_octets _))⟩

theorem yields_decodeUnsubAck (v : Version) : (decodeUnsubAck v).Yields fun b p =>
    p.SayableUnsubAck v ∧ p.properties.Sound ∧ p.layoutUnsubAck.Within b := by
  refine yields_requireHas (within_u16.bind fun b id hb => ?_)
  cases v with
  | v311 =>
    exact yields_pure
      ⟨⟨rfl, fun _ => ⟨rfl, rfl⟩⟩, Properties.sound_empty, hb.cons Layout.within_nil⟩
  | v5 =>
    refine Properties.yields_decode.bind fun b' ps ⟨hsound, hps⟩ =>
      (yields_reasons .v5).bind_pure fun b'' reasons ⟨hreasons, _⟩ => ?_
    rw [hreasons]
    exact ⟨⟨rfl, nofun⟩, hsound, hb.cons (hps.append (Layout.within_octets _))⟩

end FilterAck

/-! ## CONNECT -/

/-- The delay is one of the properties that were read. -/
theorem Properties.mem_of_long? {ps : Properties} {p : Property} {d : UInt32}
    (h : ps.long? p = some d) : (p, .long d) ∈ ps.items := by
  unfold long? get? at h
  split at h
  · rename_i hget
    cases h
    obtain ⟨item, hitem, hvalue⟩ := Option.map_eq_some_iff.1 hget
    have hp : item.1 = p := by simpa using List.find?_some hitem
    rw [← hp, ← hvalue]
    exact List.mem_of_find?_eq_some hitem
  · cases h

/-- Of the properties of a will, nothing but the delay is kept. -/
theorem Will.sublist_properties {w : Will} {ps : Properties}
    (h : w.delay = ps.long? .willDelayInterval) :
    List.Sublist w.properties.items ps.items := by
  rw [Will.properties, h]
  cases hd : ps.long? .willDelayInterval with
  | none => exact List.nil_sublist _
  | some d => exact List.singleton_sublist.2 (Properties.mem_of_long? hd)

theorem Will.yields_decode (v : Version) (qos : UInt8) (retain : Bool) :
    (decode v qos retain).Yields fun b w =>
      (v = .v311 → w.delay = none) ∧ (w.layout v).Within b := by
  refine (Properties.yields_decodeFor v).bind fun b ps ⟨_, hplain, hps⟩ =>
    within_text.bind fun b' topic htopic => within_binary.bind fun b'' payload hpayload => ?_
  split
  · exact yields_refuse _
  · refine yields_pure ⟨fun hv => by rw [hplain hv]; rfl, ?_⟩
    rw [List.append_nil]
    exact (Properties.layoutFor_within_of_sublist (sublist_properties rfl) hps).append
      (htopic.cons hpayload)

theorem Connect.yields_decodeBody : decodeBody.Yields fun b p =>
    p.Sayable ∧ p.properties.Sound ∧ p.layout.Within b := by
  refine within_text.bind fun b name hname => yields_require fun hmqtt =>
    yields_requireHas (yields_u8.bind fun bv level hlevel => ?_)
  obtain rfl : name = protocolName := by simpa using hmqtt
  split
  · exact yields_refuse _
  · rename_i v hv
    refine yields_u8.bind fun bf flags hflags => yields_require fun _ =>
      yields_u16.bind fun bk keepAlive hkeep =>
      (Properties.yields_decodeFor v).bind fun bp ps ⟨hsound, hplain, hps⟩ =>
      within_text.bind fun bc client hclient =>
      (within_optionally (Will.yields_decode v _ _) _).bind fun bw will ⟨hdelay, hwill⟩ =>
      (within_optionally (Q := fun _ => True) (within_text.imp fun _ _ h => ⟨trivial, h⟩) _).bind
        fun bu username ⟨_, husername⟩ =>
      (within_optionally (Q := fun _ => True) (within_binary.imp fun _ _ h => ⟨trivial, h⟩)
        _).bind_pure fun bq password ⟨_, hpassword⟩ => ?_
    refine ⟨⟨fun hv => ⟨hplain hv, fun w hw => hdelay w hw hv⟩⟩, hsound, ?_⟩
    have hrest := hps.append (hclient.cons (hwill.append (husername.append hpassword)))
    have hfixed (flags : UInt8) : Layout.Within
        [.octets ([v.toByte, flags] ++ Bytes.ofWord keepAlive)] (bv ++ (bf ++ bk)) := by
      rw [hlevel, hflags, hkeep]
      exact Layout.within_singleton.2 ⟨trivial, Nat.le_refl 4⟩
    have hall (flags : UInt8) := hname.cons ((hfixed flags).cons hrest)
    simp only [List.append_assoc] at hall
    exact hall _

/-! ## CONNACK and DISCONNECT -/

/-- The properties of a CONNACK may be left out, but are written. -/
theorem ConnAck.yields_decodeOutcome (v : Version) : (decodeOutcome v).Yields fun b o =>
    o.2.Sound ∧ (v = .v311 → o.2 = .empty ∧ ∃ code, Reason.ofConnectReturn? code = some o.1) ∧
      ∀ p : ConnAck, p.version = v → p.properties = o.2 →
        p.outcomeLayout.Fits ∧ p.outcomeLayout.size ≤ max b.length 2 := by
  refine yields_u8.bind fun b code hb => ?_
  subst hb
  cases v with
  | v311 =>
    dsimp only
    split
    · exact yields_refuse _
    · rename_i r hr
      refine yields_pure ⟨Properties.sound_empty, fun _ => ⟨rfl, code, hr⟩, fun p hv _ => ?_⟩
      rw [outcomeLayout, hv]
      exact ⟨Layout.fits_singleton.2 trivial, Nat.le_max_left 1 2⟩
  | v5 =>
    dsimp only
    split
    · exact yields_refuse _
    · refine Properties.yields_decodeIfAny.bind_pure fun b ps hps =>
        ⟨hps.1, fun hv => Version.noConfusion hv, fun p hv hp => ?_⟩
      rw [outcomeLayout, hv, hp]
      rcases hps.2 with ⟨rfl, rfl⟩ | hwithin
      · exact ⟨by simp [Properties.layout, Properties.body, Properties.empty, Part.Fits],
          Nat.le_max_right 1 2⟩
      · have hcode : Layout.Within [.octets [p.reason.toByte]] [code] :=
          Layout.within_singleton.2 ⟨trivial, Nat.le_refl 1⟩
        obtain ⟨hfits, hsize⟩ := hcode.cons hwithin
        exact ⟨hfits, Nat.le_trans hsize (Nat.le_max_left _ _)⟩

theorem ConnAck.yields_decodeBody (v : Version) : (decodeBody v).Yields fun b p =>
    p.Sayable v ∧ p.properties.Sound ∧ p.layout.Fits ∧ p.layout.size ≤ max b.length 3 := by
  refine yields_requireHas (yields_u8.bind fun b flags hb => yields_require fun _ =>
    (yields_decodeOutcome v).bind fun b' ⟨r, ps⟩ ⟨hsound, hplain, hwithin⟩ =>
    yields_require fun hpresent => yields_pure ?_)
  obtain ⟨hfits, hsize⟩ := hwithin ⟨decide (flags &&& 0x01 ≠ 0), r, ps, v⟩ rfl rfl
  refine ⟨⟨rfl, fun hp => ?_, hplain⟩, hsound, Layout.fits_cons.2 ⟨trivial, hfits⟩, ?_⟩
  · have hp : decide (flags &&& 0x01 ≠ 0) = true := hp
    simpa [hp] using hpresent
  · rw [List.append_nil, hb, layout, Layout.size_cons, Part.size, List.length_append]
    simp only [List.length_singleton]
    omega

theorem Disconnect.yields_decodeBody (v : Version) : (decodeBody v).Yields fun b p =>
    p.Sayable v ∧ p.properties.Sound ∧ p.layout.Within b := by
  have hnormal : ∀ b, (normal v).Sayable v ∧ (normal v).properties.Sound ∧
      (normal v).layout.Within b := by
    refine fun b => ⟨⟨rfl, fun _ => ⟨rfl, rfl⟩⟩, Properties.sound_empty, ?_⟩
    cases v <;> exact Layout.within_nil
  cases v with
  | v311 => exact yields_pure (hnormal [])
  | v5 =>
    refine yields_atEnd fun done => ?_
    cases done with
    | true => exact yields_pure (hnormal [])
    | false =>
      refine yields_u8.bind fun b code hb => ?_
      subst hb
      split
      · exact yields_refuse _
      · rename_i r _
        exact Properties.yields_decodeIfAny.bind_pure fun b ps ⟨hsound, hps⟩ =>
          ⟨⟨rfl, nofun⟩, hsound, r.within_layoutWith hps code⟩

/-! ## Whole packets -/

namespace Packet

/-- A packet that was read from octets in a version can be said again, an acknowledgment in either
version, and takes no more octets. The CONNACK whose properties were left out takes three. -/
structure Restates (v : Version) (b : Bytes) (p : Packet) : Prop where
  said : p.Sayable v ∨ ∃ kind a, p = .ack kind a ∧ a.Sayable .v5 kind
  sound : p.properties.Sound
  fits : p.body.Fits
  size : p.body.size ≤ max b.length 3

variable {v : Version} {b frame : Bytes} {p : Packet}

theorem restates_of_within (hsaid : p.Sayable v) (hsound : p.properties.Sound)
    (hwithin : p.body.Within b) : p.Restates v b :=
  ⟨.inl hsaid, hsound, hwithin.1, Nat.le_trans hwithin.2 (Nat.le_max_left _ _)⟩

theorem yields_ack (kind : AckKind) (flags : UInt8) (n : Nat) (v : Version) :
    (Packet.ack kind <$> Ack.decodeBody kind flags n).Yields fun b p => p.Restates v b :=
  (Ack.yields_decodeBody kind flags n).map fun _ a ⟨hsaid, hsound, hfits, hsize⟩ =>
    ⟨.inr ⟨kind, a, rfl, hsaid⟩, hsound, hfits, Nat.le_trans hsize (Nat.le_max_left _ _)⟩

/-- What is read from the body of a packet can be said again. -/
theorem yields_decodeBody (h : Header) (v : Version) :
    (decodeBody h v).Yields fun b p => p.Restates v b := by
  unfold decodeBody
  cases h.packet with
  | connect =>
    exact Connect.yields_decodeBody.map fun _ _ ⟨hsaid, hsound, hw⟩ =>
      restates_of_within hsaid hsound hw
  | connAck =>
    exact (ConnAck.yields_decodeBody v).map fun _ _ ⟨hsaid, hsound, hfits, hsize⟩ =>
      ⟨.inl hsaid, hsound, hfits, hsize⟩
  | publish =>
    exact (Publish.yields_decodeBody h.flags v).map fun _ _ ⟨hsaid, hsound, hw⟩ =>
      restates_of_within hsaid hsound hw
  | pubAck => exact yields_ack .pubAck h.flags h.length v
  | pubRec => exact yields_ack .pubRec h.flags h.length v
  | pubRel => exact yields_ack .pubRel h.flags h.length v
  | pubComp => exact yields_ack .pubComp h.flags h.length v
  | subscribe =>
    exact (Subscribe.yields_decodeBody h.flags v).map fun _ _ ⟨hsaid, hsound, hw⟩ =>
      restates_of_within hsaid hsound hw
  | subAck =>
    exact (FilterAck.yields_decodeSubAck v).map fun _ _ ⟨hsaid, hsound, hw⟩ =>
      restates_of_within hsaid hsound hw
  | unsubscribe =>
    exact (Unsubscribe.yields_decodeBody h.flags v).map fun _ _ ⟨hsaid, hsound, hw⟩ =>
      restates_of_within hsaid hsound hw
  | unsubAck =>
    exact (FilterAck.yields_decodeUnsubAck v).map fun _ _ ⟨hsaid, hsound, hw⟩ =>
      restates_of_within hsaid hsound hw
  | pingReq | pingResp =>
    exact yields_pure (restates_of_within trivial Properties.sound_empty Layout.within_nil)
  | disconnect =>
    exact (Disconnect.yields_decodeBody v).map fun _ _ ⟨hsaid, hsound, hw⟩ =>
      restates_of_within hsaid hsound hw
  | auth => exact yields_refuse _

/-- The length of the body that was read could be spelled. -/
theorem restates_of_decodeFrame (h : decodeFrame frame v = .ok p) :
    ∃ b, b.length ≤ VarInt.max ∧ p.Restates v b := by
  obtain ⟨hd, n, s, hpeek, hlen, hbody⟩ := decodeFrame_inv h
  obtain ⟨_, _, k, -, -, -, hk, -⟩ := Header.peek?_eq_some_iff.1 hpeek
  obtain ⟨b, hb, hrestates⟩ := yields_decodeBody hd v _ _ _ hbody
  refine ⟨b, ?_, hrestates⟩
  have hmax := VarInt.scan_le_max (VarInt.peek?_eq_some_iff.1 hk)
  have hle : b.length ≤ hd.length := by
    rw [← hlen, ← Segments.bytes_ofBytes (frame.drop n), hb, List.length_append]
    exact Nat.le_add_right _ _
  exact Nat.le_trans hle hmax

/-- A packet whose body can be announced can be written. -/
theorem Restates.toBytes (h : p.Restates v b) (hb : b.length ≤ VarInt.max) :
    ∃ frame, p.toBytes = .ok frame := by
  have hsize : p.body.size ≤ VarInt.max :=
    Nat.le_trans h.size (Nat.max_le.2 ⟨hb, by decide⟩)
  have hfits : p.layout.Fits := Layout.fits_cons.2 ⟨trivial, Layout.fits_cons.2 ⟨hsize, h.fits⟩⟩
  rcases h.said with hsaid | ⟨kind, a, rfl, hsaid⟩
  · exact ⟨_, hsaid.toBytes.1 hfits⟩
  · have hsaid : (Packet.ack kind a).Sayable .v5 := hsaid
    exact ⟨_, hsaid.toBytes.1 hfits⟩

theorem Restates.decodeFrame (h : p.Restates v b) (hf : p.toBytes = .ok frame) :
    decodeFrame frame v = .ok p := by
  rcases h.said with hsaid | ⟨kind, a, rfl, hsaid⟩
  · exact hsaid.decodeFrame_of_toBytes h.sound hf
  · exact decodeFrame_of_toBytes_ack hsaid h.sound hf

/-- A packet that was read can be written, and is read from the frame that is written, which stays
what it is when it is read and written once more. -/
theorem normal_of_decodeFrame (f : Bytes) (v : Version) (p : Packet)
    (h : Packet.decodeFrame f v = .ok p) :
    ∃ g, p.toBytes = .ok g ∧ Packet.decodeFrame g v = .ok p ∧
      (Packet.decodeFrame g v >>= Packet.toBytes) = .ok g := by
  obtain ⟨b, hb, hrestates⟩ := restates_of_decodeFrame h
  obtain ⟨g, hg⟩ := hrestates.toBytes hb
  have hread := hrestates.decodeFrame hg
  exact ⟨g, hg, hread, by rw [hread]; exact hg⟩

/-- A PUBACK that spells out its success and its lack of properties, behind a length in four
octets. -/
theorem normal_of_decodeFrame_long :
    decodeFrame [0x40, 0x84, 0x80, 0x80, 0x00, 0x00, 0x07, 0x00, 0x00] .v5 =
        .ok (.ack .pubAck (.ofReason 7 .success)) ∧
      ∃ g, (Packet.ack .pubAck (.ofReason 7 .success)).toBytes = .ok g ∧
        decodeFrame g .v5 = .ok (.ack .pubAck (.ofReason 7 .success)) ∧
        (decodeFrame g .v5 >>= Packet.toBytes) = .ok g := by
  have hread : decodeFrame [0x40, 0x84, 0x80, 0x80, 0x00, 0x00, 0x07, 0x00, 0x00] .v5 =
      .ok (.ack .pubAck (.ofReason 7 .success)) := by decide
  exact ⟨hread, normal_of_decodeFrame _ .v5 _ hread⟩

end Packet

end Mqtt
