import Mathlib
import Mqtt.Proofs.Client.Origins
import Mqtt.Proofs.Client.Prompt
import Mqtt.Proofs.Packet.Acceptance

/-!
# Acknowledgments in v3.1.1

In v3.1.1 an acknowledgment is an identifier and nothing else. A client that goes over from v5.0 to
v3.1.1 may retain PUBREC and PUBREL with reasons, and the version of an exchange tells which of them
are to be converted: in an exchange of v3.1.1 there is no reason (`Exchange.Labelled`). Two
operations do not care for that (`Leaks`): a retained acknowledgment that is called for again is
sent as it is, and an exchange that is released stays in its version.

In all other runs every acknowledgment that is sent in v3.1.1 has the short form:
`acknowledgments_short`. `reasons_sent_in_v311` shows what is sent otherwise.
-/

namespace Mqtt

theorem PacketType.toByte_injective : Function.Injective toByte := by
  intro t t' h
  have hsome := congrArg ofByte? h
  rw [ofByte?_toByte, ofByte?_toByte] at hsome
  exact Option.some.inj hsome

theorem AckKind.packetType_injective : Function.Injective packetType := by
  intro kind kind' h
  cases kind <;> cases kind' <;> first | rfl | cases h

/-- A packet with the role of an acknowledgment is one. -/
theorem Role.eq_ack_of_ofPacket? {p : Packet} {kind : AckKind} {id : UInt16} {dup : Bool}
    (h : ofPacket? p = some ⟨kind.packetType, id, dup⟩) : ∃ a, p = .ack kind a ∧ a.id = id := by
  unfold ofPacket? at h
  split at h
  · split at h
    · cases h
    · obtain ⟨i, -, hrole⟩ := Option.map_eq_some_iff.1 h
      cases kind <;> cases hrole
  · rename_i kind' a
    simp only [Option.some.injEq, Role.mk.injEq] at h
    obtain rfl := AckKind.packetType_injective h.1
    exact ⟨a, rfl, h.2.1⟩
  · cases h

namespace Retained

/-- The version decides about the reason and nothing else. -/
theorem ackBytes_eq (v : Version) (kind : AckKind) (id : UInt16) (reason : Reason) :
    ackBytes v kind id reason = ackBytes .v5 kind id (reason.inVersion v) := by
  cases v <;> rfl

/-- The short form. -/
theorem ackBytes_success (v : Version) (kind : AckKind) (id : UInt16) :
    ackBytes v kind id .success =
      (kind.packetType.toByte * 16 + kind.flags) :: 2 :: Bytes.ofWord id := by
  cases v <;> cases kind <;> rfl

theorem short_of_heads {v : Version} {kind kind' : AckKind} {id : UInt16}
    (h : kind.packetType.Heads (ackBytes v kind' id .success)) :
    ∃ id', ackBytes v kind' id .success =
      (kind.packetType.toByte * 16 + kind.flags) :: 2 :: Bytes.ofWord id' := by
  have htype := PacketType.toByte_injective ((type_ackBytes v kind' id .success).symm.trans h)
  obtain rfl := AckKind.packetType_injective htype
  exact ⟨id, ackBytes_success v kind' id⟩

/-- A PUBREL that is converted to v3.1.1 has lost its reason. -/
theorem ackBytes_of_convert {frame frame' : Bytes} {old : Version} {id : UInt16} {dup : Bool}
    (hr : Role.ofFrame? frame = some ⟨.pubRel, id, dup⟩)
    (hf : convert frame old .v311 = .ok frame') : frame' = ackBytes .v311 .pubRel id .success := by
  simp only [convert, Except.bind_eq_ok_iff] at hf
  obtain ⟨p, hp, q, hq, hf⟩ := hf
  rw [Role.ofFrame?_of_decodeFrame hp] at hr
  have hr : Role.ofPacket? p = some ⟨AckKind.pubRel.packetType, id, dup⟩ := hr
  obtain ⟨a, rfl, rfl⟩ := Role.eq_ack_of_ofPacket? hr
  cases hq
  exact Except.ok.inj (hf.symm.trans (ack_eq .v311 .pubRel a.id .success))

end Retained

namespace Exchange

variable {e : Exchange}

/-- An acknowledgment that the exchange retains has a reason in v5.0 only. -/
def Labelled (e : Exchange) : Prop :=
  ∀ kind : AckKind, e.retains = kind.packetType →
    ∃ reason, e.frame = Retained.ackBytes .v5 kind e.id reason ∧
      (e.version = .v311 → reason = .success)

theorem labelled_receipt (v : Version) (id : UInt16) (reason : Reason) :
    (receipt v id reason).Labelled := by
  intro kind hk
  obtain rfl : .pubRec = kind := AckKind.packetType_injective hk
  refine ⟨reason.inVersion v, Retained.ackBytes_eq v .pubRec id reason, fun hv => ?_⟩
  obtain rfl : v = .v311 := hv
  rfl

/-- A released exchange keeps its version, so a reason must not come from another one. -/
theorem labelled_released (hd : e.direction = .outbound) {v : Version} {reason : Reason}
    (h : e.version = .v311 → reason.inVersion v = .success) : (e.released v reason).Labelled := by
  intro kind hk
  have hretains : (e.released v reason).retains = .pubRel := by rw [retains, released, hd]
  obtain rfl : .pubRel = kind := AckKind.packetType_injective (hretains.symm.trans hk)
  exact ⟨reason.inVersion v, Retained.ackBytes_eq v .pubRel e.id reason, h⟩

theorem Labelled.faithful (h : e.Labelled) {kind : AckKind} (hk : e.retains = kind.packetType) :
    Role.ofFrame? e.frame = some ⟨kind.packetType, e.id, false⟩ := by
  obtain ⟨reason, hf, -⟩ := h kind hk
  rw [hf]
  exact Role.ofFrame?_ackBytes .v5 kind e.id reason

/-- A PUBREL has no reason any more once it is converted, whichever way. -/
theorem Labelled.reframed (h : e.Labelled) (hcheck : e.check = .ok ())
    (hd : e.direction = .outbound) {v : Version} (hv : e.version ≠ v) {frame : Bytes}
    (hf : Retained.convert e.frame e.version v = .ok frame) : (e.reframed frame v).Labelled := by
  intro kind hk
  have hk : e.retains = kind.packetType := hk
  obtain rfl : kind = .pubRel := by
    rw [retains_outbound hd] at hk
    cases kind <;> split at hk <;> first | rfl | cases hk
  refine ⟨.success, ?_, fun _ => rfl⟩
  change frame = Retained.ackBytes .v5 .pubRel e.id .success
  cases v with
  | v311 => exact Retained.ackBytes_of_convert (h.faithful hk) hf
  | v5 =>
    obtain ⟨reason, hframe, hreason⟩ := h .pubRel hk
    have hold : e.version = .v311 := by
      cases hversion : e.version with
      | v311 => rfl
      | v5 => exact absurd hversion hv
    have hid : e.id ≠ 0 := (check_eq_ok_iff.1 hcheck).1
    rw [hframe, hreason hold, Retained.convert_ackBytes hid rfl] at hf
    exact (Except.ok.inj hf).symm

end Exchange

namespace Client

/-- The operation lets a reason of v5.0 through to v3.1.1. -/
inductive Leaks (c : Client) : Op → Prop
  /-- An acknowledgment that was given a reason in v5.0 is called for again in v3.1.1. -/
  | again {op : Op} {kind : AckKind} {e : Exchange} {reason : Reason}
      (he : e ∈ c.session.ledger.toList)
      (hf : e.frame = Retained.ackBytes .v5 kind e.id reason) (hr : reason ≠ .success)
      (hv : c.version = .v311) (hop : op.CallsFor kind e.id) : Leaks c op
  /-- An exchange of v3.1.1 is released with a reason of v5.0. -/
  | release {op : Op} {e : Exchange} {reason : Reason} (he : e ∈ c.session.ledger.toList)
      (hold : e.version = .v311) (hr : reason ≠ .success) (hv : c.version = .v5)
      (hop : c.Gives op .pubRel e.id reason) : Leaks c op

/-- The operation takes in no record and lets no reason through. -/
structure Sealed (c : Client) (op : Op) : Prop where
  unrestored : ∀ id data, op ≠ .restore id data
  tight : ¬c.Leaks op

/-- The operation takes in no record and calls for no PUBREC and no PUBREL. -/
def Op.Silent : Op → Bool
  | .restore _ _ | .request (.acknowledge _ _ _) => false
  | .receive (.publish _) | .handle (.publish _) => false
  | .receive (.ack .pubRec _) | .handle (.ack .pubRec _) => false
  | _ => true

variable {c c' : Client} {op : Op} {frame : Bytes} {kind : AckKind}

theorem Gives.callsFor {id : UInt16} {reason : Reason} (h : c.Gives op .pubRel id reason) :
    op.CallsFor .pubRel id := by
  cases h with
  | byHand => exact .byHand .pubRel id reason
  | received _ _ _ hk => rcases hk with ⟨-, hk⟩ | ⟨-, hk⟩ <;> cases hk
  | released _ hop => exact .released hop

theorem Op.CallsFor.not_silent {id : UInt16} (h : op.CallsFor kind id) : op.Silent = false := by
  cases h with
  | byHand => rfl
  | received hop | released hop => rcases hop with rfl | rfl <;> rfl

theorem sealed_of_silent (h : op.Silent) : c.Sealed op where
  unrestored id data hop := by
    rw [hop] at h
    cases h
  tight hleak := by
    have hsilent : op.Silent = false := by
      cases hleak with
      | again _ _ _ _ hop => exact hop.not_silent
      | release _ _ _ _ hop => exact hop.callsFor.not_silent
    rw [hsilent] at h
    cases h

/-- Nothing leaks in v5.0 if everything was started in v5.0. -/
theorem sealed_of_v5 (hop : ∀ id data, op ≠ .restore id data) (hv : c.version = .v5)
    (h : ∀ e ∈ c.session.ledger.toList, e.version = .v5) : c.Sealed op where
  unrestored := hop
  tight hleak := by
    cases hleak with
    | again _ _ _ hv' =>
      rw [hv] at hv'
      cases hv'
    | release he hold =>
      rw [h _ he] at hold
      cases hold

/-- What an operation starts, moves on or converts is labelled. -/
theorem sustains_labelled (hop : c.Sealed op) : c.Sustains op Exchange.Labelled where
  publish p id frame _ _ _ _ kind hk := by
    rw [Exchange.retains_published] at hk
    cases kind <;> cases hk
  receipt id reason _ _ _ := Exchange.labelled_receipt c.version id reason
  release e reason hmem _ _ hd _ hgives := by
    refine Exchange.labelled_released hd fun hold => ?_
    cases hv : c.version with
    | v311 => rfl
    | v5 => exact by_contra fun hr => hop.tight (.release hmem hold hr hv hgives)
  convert _ _ _ he hcheck hd hv hf := he.reframed hcheck hd hv hf
  restore id data e heq := absurd heq (hop.unrestored id data)

/-- A packet that an operation makes is no acknowledgment. -/
theorem Makes.not_heads {p : Packet} (h : c.Makes op p) (hf : p.toBytes = .ok frame) :
    ¬kind.packetType.Heads frame := by
  intro hk
  have htype : p.packetType.toByte = kind.packetType.toByte :=
    (Packet.type_of_toBytes hf).symm.trans hk
  cases h <;> cases kind <;> cases htype

/-- An acknowledgment that is sent in v3.1.1 has the short form, wherever it comes from. -/
theorem Stems.short (h : c.Stems op Exchange.Labelled (.send frame)) (hop : c.Sealed op)
    (hv : c.version = .v311) (hk : kind.packetType.Heads frame) :
    ∃ id, frame = (kind.packetType.toByte * 16 + kind.flags) :: 2 :: Bytes.ofWord id := by
  generalize ha : Action.send frame = a at h
  cases h with
  | quiet h =>
    rw [← ha] at h
    cases h.1
  | packet hp hf =>
    cases ha
    exact absurd hk (hp.not_heads hf)
  | @ack kind' id reason =>
    cases ha
    have hshort : Retained.ackBytes c.version kind' id reason =
        Retained.ackBytes .v311 kind' id .success := by
      rw [hv]
      rfl
    rw [hshort] at hk ⊢
    exact Retained.short_of_heads hk
  | @retained e kind' hcalls hretains he hlabelled =>
    cases ha
    obtain ⟨reason, hf, -⟩ := hlabelled kind' hretains
    obtain rfl : reason = .success := by_contra fun hr => hop.tight (.again he hf hr hv hcalls)
    rw [hf] at hk ⊢
    exact Retained.short_of_heads hk
  | @replay e _ hlabelled hcheck hd hversion =>
    cases ha
    have hretains := PacketType.toByte_injective ((heads_retains hcheck).symm.trans hk)
    obtain ⟨reason, hf, hreason⟩ := hlabelled kind hretains
    have hawaits : e.awaits = .pubComp := by
      rw [Exchange.retains_outbound hd] at hretains
      split at hretains
      · assumption
      · cases kind <;> cases hretains
    rw [Exchange.replay, if_pos hawaits, hf, hreason (hversion.trans hv)] at hk ⊢
    exact Retained.short_of_heads hk
  | started | moved | erase => cases ha

/-- Every acknowledgment of an operation has the short form if the client then speaks v3.1.1. -/
theorem short_step (hc : c.WF) (hl : c.session.ledger.All Exchange.Labelled) (hop : c.Sealed op)
    (hsend : .send frame ∈ (c.step op).actions) (hv : (c.step op).client.version = .v311)
    (hk : kind.packetType.Heads frame) :
    ∃ id, frame = (kind.packetType.toByte * 16 + kind.flags) :: 2 :: Bytes.ofWord id := by
  rcases stems_of_send hc (sustains_labelled hop) hl hsend with
    ⟨o, now, rfl, hf⟩ | ⟨-, hsame, hstems⟩
  · exact absurd hk ((Makes.connect (c := c) o now).not_heads hf)
  · exact hstems.short hop (hsame.symm.trans hv) hk

/-- Whatever a client is asked to do, every acknowledgment that it sends in v3.1.1 has the short
form, unless a reason of v5.0 was let through. -/
theorem acknowledgments_short (options : ClientOptions) {past : List Op}
    (h : (new options).Throughout Sealed (past ++ [op]))
    (hsend : .send frame ∈ (((new options).after past).step op).actions)
    (hv : (((new options).after past).step op).client.version = .v311)
    (hk : kind.packetType.Heads frame) :
    ∃ id, frame = (kind.packetType.toByte * 16 + kind.flags) :: 2 :: Bytes.ofWord id := by
  obtain ⟨hpast, hop⟩ := throughout_concat_iff.1 h
  exact short_step (wf_after (wf_new options) past) (hpast.ledger sustains_labelled) hop hsend hv hk

/-- A QoS 2 message is published in v5.0. -/
def publishesInV5 : List Op :=
  [.connect { clientId := "c", properties := { sessionExpiry := some 60 } } 0,
    .receive (.connAck ⟨false, .success, .empty, .v5⟩),
    .request (.publish ⟨"t", none, [1], .exactlyOnce, false, false, .empty, .v5⟩)]

/-- The client connects once more, in v3.1.1. -/
def connectsInV311 : List Op :=
  [.connectionLost 1, .connect { clientId := "c", cleanStart := false, version := .v311 } 2]

/-- A PUBREL that was given a reason by hand is converted to v3.1.1, and the reason is lost. -/
theorem acknowledgments_short_converted :
    let release := Op.request (.acknowledge .pubRel 1 .packetIdentifierNotFound)
    let past := publishesInV5 ++ [release] ++ connectsInV311
    let op := Op.receive (.connAck ⟨true, .success, .empty, .v311⟩)
    (new {}).Throughout Sealed (past ++ [op]) ∧
      (((new {}).after publishesInV5).step release).actions.filterMap Action.frame? =
        [[98, 3, 0, 1, 146]] ∧
      (((new {}).after past).step op).actions.filterMap Action.frame? = [[98, 2, 0, 1]] ∧
      (((new {}).after past).step op).client.version = .v311 ∧
      ∃ id, [98, 2, 0, 1] = 98 :: 2 :: Bytes.ofWord id := by
  intro release past op
  have hreleased : ((new {}).after publishesInV5).Sealed release := by
    refine sealed_of_v5 nofun (by cbv) ?_
    have hledger : ((new {}).after publishesInV5).session.ledger.toList =
        [⟨1, .outbound, .pubRec, .exactlyOnce, [52, 7, 0, 1, 116, 0, 1, 0, 1], .v5⟩] := by cbv
    simp [hledger]
  have hsealed : (new {}).Throughout Sealed (past ++ [op]) :=
    ⟨sealed_of_silent rfl, sealed_of_silent rfl, sealed_of_silent rfl, hreleased,
      sealed_of_silent rfl, sealed_of_silent rfl, sealed_of_silent rfl, trivial⟩
  have hframes : (((new {}).after past).step op).actions.filterMap Action.frame? =
      [[98, 2, 0, 1]] := by cbv
  have hsend : .send [98, 2, 0, 1] ∈ (((new {}).after past).step op).actions :=
    Action.mem_frames.1 (hframes ▸ List.mem_cons_self)
  have hversion : (((new {}).after past).step op).client.version = .v311 := by cbv
  have hheads : AckKind.pubRel.packetType.Heads [98, 2, 0, 1] := rfl
  exact ⟨hsealed, by cbv, hframes, hversion,
    acknowledgments_short {} hsealed hsend hversion hheads⟩

/-- A PUBREC with a reason is sent in v3.1.1 when it is called for again. -/
theorem reasons_sent_in_v311 :
    let connects : List Op := publishesInV5.take 2
    let refuses := Op.request (.acknowledge .pubRec 1 .noMatchingSubscribers)
    let resumes := Op.receive (.connAck ⟨true, .success, .empty, .v311⟩)
    let c := (new { autoAck := false }).after
      (connects ++ [refuses] ++ connectsInV311 ++ [resumes])
    let again : Publish := ⟨"t", some 1, [1], .exactlyOnce, false, true, .empty, .v311⟩
    (c.step (.receive (.publish again))).actions = [.send [80, 3, 0, 1, 16]] ∧
      (c.step (.receive (.publish again))).client.version = .v311 ∧
      PacketType.pubRec.Heads [80, 3, 0, 1, 16] :=
  ⟨by cbv, by cbv, rfl⟩

end Client

end Mqtt
