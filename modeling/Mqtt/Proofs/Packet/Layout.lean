import Mqtt.Packet.Codec
import Mqtt.Proofs.Property.Block

/-!
# Packets that a version can say, and their layouts

A packet is `Sayable` in a version if it keeps the rules of its type and has nothing in it that the
version cannot express: v3.1.1 has no properties, no options of a subscription but its quality of
service, and no reasons besides the return codes of CONNACK and SUBACK.

`Packet.body` is the layout of the body of such a packet, and `Packet.layout` that of the whole. A
packet is written as its layout, or refused because a part of it does not fit:
`Packet.Sayable.toBytes`.
-/

namespace Mqtt

open Output

/-! ## What can be said -/

/-- The delay of a will is a property. -/
structure Connect.Sayable (p : Connect) : Prop where
  plain : p.version = .v311 → p.properties = .empty ∧ ∀ w, p.will = some w → w.delay = none

/-- Only a success can go with a session that is present; v3.1.1 has six return codes. -/
structure ConnAck.Sayable (v : Version) (p : ConnAck) : Prop where
  version : p.version = v
  present : p.sessionPresent → p.reason = .success
  plain : v = .v311 → p.properties = .empty ∧ ∃ code, Reason.ofConnectReturn? code = some p.reason

/-- Only a message above QoS 0 has an identifier and may be sent again. -/
structure Publish.Sayable (v : Version) (p : Publish) : Prop where
  version : p.version = v
  once : p.qos = .atMostOnce → p.id = none ∧ p.dup = false
  tracked : p.qos ≠ .atMostOnce → ∃ id, id ≠ 0 ∧ p.id = some id
  plain : v = .v311 → p.properties = .empty

/-- Every kind of acknowledgment has reasons of its own, and v3.1.1 has none but success. -/
structure Ack.Sayable (v : Version) (kind : AckKind) (a : Ack) : Prop where
  id : a.id ≠ 0
  reason : kind.permits a.reason
  plain : v = .v311 → a = a.bare

/-- There are three ways of handling retained messages. -/
def FilterOptions.Sayable (v : Version) (o : FilterOptions) : Prop :=
  match v with
  | .v311 => o = { qos := o.qos }
  | .v5 => o.retainHandling ≤ 2

structure Subscribe.Sayable (v : Version) (p : Subscribe) : Prop where
  version : p.version = v
  id : p.id ≠ 0
  filters : p.filters ≠ []
  options : ∀ f ∈ p.filters, f.options.Sayable v
  plain : v = .v311 → p.properties = .empty

structure Unsubscribe.Sayable (v : Version) (p : Unsubscribe) : Prop where
  version : p.version = v
  filters : p.filters ≠ []
  plain : v = .v311 → p.properties = .empty

namespace FilterAck

/-- A SUBACK has a reason at least; those of v3.1.1 are the granted levels and failure. -/
structure SayableSubAck (v : Version) (p : FilterAck) : Prop where
  version : p.version = v
  reasons : p.reasons ≠ []
  plain : v = .v311 → p.properties = .empty ∧ ∀ r ∈ p.reasons, isGrant r.toByte

/-- In v3.1.1 an UNSUBACK has no reasons. -/
structure SayableUnsubAck (v : Version) (p : FilterAck) : Prop where
  version : p.version = v
  plain : v = .v311 → p.properties = .empty ∧ p.reasons = []

end FilterAck

/-- In v3.1.1 every disconnection is normal. -/
structure Disconnect.Sayable (v : Version) (p : Disconnect) : Prop where
  version : p.version = v
  plain : v = .v311 → p.reason = .success ∧ p.properties = .empty

namespace Packet

/-- A packet that a version can say. A CONNECT is in a version of its own. -/
def Sayable (v : Version) : Packet → Prop
  | .connect p => p.Sayable
  | .connAck p => p.Sayable v
  | .publish p => p.Sayable v
  | .ack kind a => a.Sayable v kind
  | .subscribe p => p.Sayable v
  | .subAck p => p.SayableSubAck v
  | .unsubscribe p => p.Sayable v
  | .unsubAck p => p.SayableUnsubAck v
  | .pingReq | .pingResp => True
  | .disconnect p => p.Sayable v

/-- The properties of a packet; a ping has none. -/
def properties : Packet → Properties
  | .connect p => p.properties
  | .connAck p => p.properties
  | .publish p => p.properties
  | .ack _ a => a.properties
  | .subscribe p => p.properties
  | .subAck p => p.properties
  | .unsubscribe p => p.properties
  | .unsubAck p => p.properties
  | .pingReq | .pingResp => .empty
  | .disconnect p => p.properties

end Packet

/-! ## Layouts -/

/-- The layout of a will. -/
def Will.layout (v : Version) (w : Will) : Layout :=
  w.properties.layoutFor v ++ [.text w.topic, .binary w.payload]

/-- The layout of the body of a CONNECT. -/
def Connect.layout (p : Connect) : Layout :=
  .text protocolName :: .octets ([p.version.toByte, p.flags] ++ Bytes.ofWord p.keepAlive) ::
    (p.properties.layoutFor p.version ++ .text p.clientId ::
      ((p.will.map (Will.layout p.version)).getD [] ++
        ((p.username.map fun s => [.text s]).getD [] ++ (p.password.map fun b => [.binary b]).getD [])))

/-- The layout of the reason and the properties of a CONNACK. -/
def ConnAck.outcomeLayout (p : ConnAck) : Layout :=
  match p.version with
  | .v311 => [.octets [p.reason.toConnectReturn]]
  | .v5 => .octets [p.reason.toByte] :: p.properties.layout

/-- The layout of the body of a CONNACK. -/
def ConnAck.layout (p : ConnAck) : Layout :=
  .octets [flagBit p.sessionPresent 0x01] :: p.outcomeLayout

/-- The layout of the identifier of a message, if it has one. -/
def Publish.idLayout (p : Publish) : Layout :=
  match p.id with
  | none => []
  | some id => [.octets (Bytes.ofWord id)]

/-- The layout of the body of a PUBLISH. -/
def Publish.layout (p : Publish) : Layout :=
  .text p.topic :: (p.idLayout ++ (p.properties.layoutFor p.version ++ [.octets p.payload]))

/-- The layout of a reason and properties in their shortest form. -/
def Reason.layoutWith (ps : Properties) (r : Reason) : Layout :=
  if r = .success ∧ ps.isEmpty then []
  else .octets [r.toByte] :: if ps.isEmpty then [] else ps.layout

/-- The layout of the body of an acknowledgment. -/
def Ack.layout (a : Ack) : Layout := .octets (Bytes.ofWord a.id) :: a.reason.layoutWith a.properties

/-- The layout of a topic filter with its options. -/
def TopicFilter.layout (v : Version) (f : TopicFilter) : Layout :=
  [.text f.filter, .octets [f.options.toByteFor v]]

/-- The layout of the body of a SUBSCRIBE. -/
def Subscribe.layout (p : Subscribe) : Layout :=
  .octets (Bytes.ofWord p.id) :: p.properties.layoutFor p.version ++
    p.filters.flatMap (TopicFilter.layout p.version)

/-- The layout of the body of an UNSUBSCRIBE. -/
def Unsubscribe.layout (p : Unsubscribe) : Layout :=
  .octets (Bytes.ofWord p.id) :: p.properties.layoutFor p.version ++
    p.filters.flatMap fun s => [.text s]

/-- The layout of the body of a SUBACK. -/
def FilterAck.layoutSubAck (p : FilterAck) : Layout :=
  .octets (Bytes.ofWord p.id) :: p.properties.layoutFor p.version ++
    [.octets (p.reasons.map Reason.toByte)]

/-- The layout of the body of an UNSUBACK. -/
def FilterAck.layoutUnsubAck (p : FilterAck) : Layout :=
  .octets (Bytes.ofWord p.id) ::
  match p.version with
  | .v311 => []
  | .v5 => p.properties.layout ++ [.octets (p.reasons.map Reason.toByte)]

/-- The layout of the body of a DISCONNECT. -/
def Disconnect.layout (p : Disconnect) : Layout :=
  match p.version with
  | .v311 => []
  | .v5 => p.reason.layoutWith p.properties

namespace Packet

/-- The layout of the body of a packet. -/
def body : Packet → Layout
  | .connect p => p.layout
  | .connAck p => p.layout
  | .publish p => p.layout
  | .ack _ a => a.layout
  | .subscribe p => p.layout
  | .subAck p => p.layoutSubAck
  | .unsubscribe p => p.layout
  | .unsubAck p => p.layoutUnsubAck
  | .pingReq | .pingResp => []
  | .disconnect p => p.layout

/-- The fixed header of a packet. -/
def header (p : Packet) : Header := ⟨p.packetType, p.flags, p.body.size⟩

/-- The layout of a packet: the octet with its type and flags, the length of the body, the body. -/
def layout (p : Packet) : Layout :=
  .octets [p.header.firstOctet] :: .number p.body.size :: p.body

end Packet

/-! ## Writing -/

theorem Will.writes_encode (v : Version) (w : Will) : (w.encode v).Writes (w.layout v) := by
  rw [Will.encode, append_assoc]
  exact (w.properties.writes_encodeFor v).append
    ((writes_text w.topic).cons (writes_binary w.payload))

theorem Connect.writes_encodeBody (p : Connect) : p.encodeBody.Writes p.layout := by
  have hpassword := writes_option writes_binary p.password
  have hcredentials := (writes_option writes_text p.username).append hpassword
  have hwill := (writes_option (Will.writes_encode p.version) p.will).append hcredentials
  have hclient := (writes_text p.clientId).cons hwill
  rw [encodeBody, concat_cons, concat_cons, concat_cons, concat_cons, concat_cons, concat_cons,
    concat_cons, concat_nil, append_empty]
  exact (writes_text protocolName).cons ((writes_put _).cons
    ((p.properties.writes_encodeFor p.version).append hclient))

theorem ConnAck.writes_encodeBody (p : ConnAck) : p.encodeBody.Writes p.layout := by
  obtain ⟨present, reason, ps, v⟩ := p
  refine (writes_put _).cons ?_
  cases v with
  | v311 => exact writes_put _
  | v5 => exact (writes_put _).cons ps.writes_encode

theorem Publish.Sayable.writes_encodeId {v : Version} {p : Publish} (h : p.Sayable v) :
    p.encodeId.Writes p.idLayout := by
  rw [encodeId, idLayout]
  cases hq : p.qos with
  | atMostOnce =>
    rw [(h.once hq).1]
    exact writes_empty
  | atLeastOnce | exactlyOnce =>
    obtain ⟨id, hid, hp⟩ := h.tracked (by simp [hq])
    rw [hp]
    dsimp only
    rw [if_neg hid]
    exact writes_put _

theorem Publish.Sayable.writes_encodeBody {v : Version} {p : Publish} (h : p.Sayable v) :
    p.encodeBody.Writes p.layout := by
  rw [encodeBody, concat_cons, concat_cons, concat_cons, concat_cons, concat_nil, append_empty]
  exact (writes_text p.topic).cons (h.writes_encodeId.append
    ((p.properties.writes_encodeFor p.version).append (writes_put p.payload)))

theorem Reason.writes_layoutWith (r : Reason) (ps : Properties) :
    (if r = .success ∧ ps.isEmpty then .empty
      else .put [r.toByte] ++ if ps.isEmpty then .empty else ps.encode : Output).Writes
        (r.layoutWith ps) := by
  rw [layoutWith]
  split_ifs
  · exact writes_empty
  · exact (writes_put _).cons writes_empty
  · exact (writes_put _).cons ps.writes_encode

theorem Ack.writes_encodeBody (a : Ack) : a.encodeBody.Writes a.layout :=
  (writes_put _).cons (a.reason.writes_layoutWith a.properties)

theorem Subscribe.Sayable.writes_encodeBody {v : Version} {p : Subscribe} (h : p.Sayable v) :
    p.encodeBody.Writes p.layout := by
  rw [encodeBody, if_neg (by simpa using h.filters)]
  exact ((writes_put _).cons (p.properties.writes_encodeFor p.version)).append
    (writes_concat (fun f => (writes_text f.filter).cons (writes_put _)) p.filters)

theorem Unsubscribe.Sayable.writes_encodeBody {v : Version} {p : Unsubscribe} (h : p.Sayable v) :
    p.encodeBody.Writes p.layout := by
  rw [encodeBody, if_neg (by simpa using h.filters)]
  exact ((writes_put _).cons (p.properties.writes_encodeFor p.version)).append
    (writes_concat writes_text p.filters)

theorem FilterAck.writes_encodeSubAck (p : FilterAck) : p.encodeSubAck.Writes p.layoutSubAck :=
  ((writes_put _).cons (p.properties.writes_encodeFor p.version)).append (writes_put _)

theorem FilterAck.writes_encodeUnsubAck (p : FilterAck) :
    p.encodeUnsubAck.Writes p.layoutUnsubAck := by
  obtain ⟨id, reasons, ps, v⟩ := p
  refine (writes_put _).cons ?_
  cases v with
  | v311 => exact writes_empty
  | v5 => exact ps.writes_encode.append (writes_put _)

theorem Disconnect.writes_encodeBody (p : Disconnect) : p.encodeBody.Writes p.layout := by
  obtain ⟨reason, ps, v⟩ := p
  cases v with
  | v311 => exact writes_empty
  | v5 => exact reason.writes_layoutWith ps

namespace Packet

variable {v : Version} {p : Packet}

theorem Sayable.writes_encodeBody (h : p.Sayable v) : p.encodeBody.Writes p.body := by
  cases p with
  | connect p => exact p.writes_encodeBody
  | connAck p => exact p.writes_encodeBody
  | publish p => exact Publish.Sayable.writes_encodeBody h
  | ack kind a => exact a.writes_encodeBody
  | subscribe p => exact Subscribe.Sayable.writes_encodeBody h
  | subAck p => exact p.writes_encodeSubAck
  | unsubscribe p => exact Unsubscribe.Sayable.writes_encodeBody h
  | unsubAck p => exact p.writes_encodeUnsubAck
  | pingReq => exact writes_empty
  | pingResp => exact writes_empty
  | disconnect p => exact p.writes_encodeBody

/-- The body is written aside, and its length in front of it. -/
theorem Sayable.writes_encode (h : p.Sayable v) : p.encode.Writes p.layout := by
  have hbody := h.writes_encodeBody
  by_cases hfits : p.body.Fits
  · have hput := hbody.written hfits
    rw [hput] at hbody
    have hencode : p.encode = if p.body.size < 4294967296 then p.header.encode ++ .put p.body.bytes
        else .fail (.packetTooLarge p.body.size VarInt.max) := by
      rw [encode, hput]
      simp only [Output.put, Layout.length_bytes, header]
    by_cases hsize : p.body.size < 4294967296
    · rw [hencode, if_pos hsize, Header.encode, append_assoc]
      exact (writes_put _).cons ((writes_number _).cons hbody)
    · have hlarge : ¬(Part.number p.body.size).Fits := by
        rw [Part.Fits, VarInt.max]
        omega
      rw [hencode, if_neg hsize]
      exact writes_fail (fun hl => hlarge (hl _ (List.mem_cons_of_mem _ List.mem_cons_self))) _
  · obtain ⟨e, he⟩ := hbody.refused hfits
    have hencode : p.encode = .fail e := by rw [encode, he]
    rw [hencode]
    refine writes_fail (fun hl => hfits ?_) e
    exact (Layout.fits_cons.1 (Layout.fits_cons.1 hl).2).2

theorem Sayable.toBytes (h : p.Sayable v) :
    (p.layout.Fits → p.toBytes = .ok p.layout.bytes) ∧
      (¬p.layout.Fits → ∃ e, p.toBytes = .error e) :=
  h.writes_encode.toExcept

end Packet

end Mqtt
