import Mathlib
import Mqtt.Proofs.Client.Origins
import Mqtt.Proofs.Client.Survival
import Mqtt.Proofs.Packet.Acceptance

/-!
# Retained frames describe their exchanges

An exchange is genuine (`Exchange.Genuine`) if the frame it retains was written for it: the PUBLISH
of its message, or a PUBREC or PUBREL with a reason that it may give. Whatever a client does keeps
its exchanges genuine (`sustains_genuine`), as long as reasons that are given by hand are permitted
and records that are taken in were reported by a client of which the same is true (`Regular`).

So every exchange passes its check, and its frame is accepted in the version of the exchange, as the
packet that the exchange says: `retained_frames_describe`.
-/

namespace Mqtt

namespace Exchange

/-- The frame was written for the exchange. -/
inductive Genuine : Exchange → Prop
  | publish {v : Version} {p : Publish} {id : UInt16} {frame : Bytes} (hsay : p.Sayable v)
      (hsound : p.properties.Sound) (hid : p.id = some id) (hq : p.qos ≠ .atMostOnce)
      (hdup : p.dup = false) (hf : (Packet.publish p).toBytes = .ok frame) :
      Genuine ⟨id, .outbound, Client.Reaction.firstAwaited p.qos, p.qos, frame, v⟩
  | receipt {v : Version} {id : UInt16} {reason : Reason} (hid : id ≠ 0)
      (hr : AckKind.pubRec.permits (reason.inVersion v)) : Genuine (receipt v id reason)
  /-- The version stays that of the message, whichever one PUBREL was written in. -/
  | release {v w : Version} {id : UInt16} {reason : Reason} (hid : id ≠ 0)
      (hr : AckKind.pubRel.permits (reason.inVersion w)) :
      Genuine ⟨id, .outbound, .pubComp, .exactlyOnce, Retained.ackBytes w .pubRel id reason, v⟩

/-- The packet is the one that the exchange says it retains. -/
structure Describes (p : Packet) (e : Exchange) : Prop where
  type : p.packetType = e.retains
  id : p.id? = some e.id
  message : ∀ q, p = .publish q → q.qos = e.qos ∧ q.dup = false

variable {e : Exchange}

theorem Genuine.check (h : e.Genuine) : e.check = .ok () := by
  cases h with
  | publish hsay hsound hid hq hdup hf =>
    obtain ⟨id', hne, hid'⟩ := hsay.tracked hq
    obtain rfl : id' = _ := Option.some.inj (hid'.symm.trans hid)
    exact Client.Reaction.check_published hq hne hf
  | receipt hid hr => exact check_receipt hid
  | release hid hr => exact check_eq_ok_iff.2 ⟨hid, rfl, Retained.type_ackBytes ..⟩

/-- The frame of a genuine exchange is accepted, as the packet that the exchange says. -/
theorem Genuine.describes (h : e.Genuine) :
    ∃ p, Packet.decodeFrame e.frame e.version = .ok p ∧ Describes p e := by
  cases h with
  | @publish v p id frame hsay hsound hid hq hdup hf =>
    refine ⟨.publish p,
      Packet.Sayable.decodeFrame_of_toBytes (p := .publish p) hsay hsound hf, ?_, hid, ?_⟩
    · exact (retains_published id p.qos frame v).symm
    · intro q hq
      cases hq
      exact ⟨rfl, hdup⟩
  | receipt hid hr => exact ⟨_, Retained.decodeFrame_ackBytes hid hr _, rfl, rfl, nofun⟩
  | release hid hr => exact ⟨_, Retained.decodeFrame_ackBytes hid hr _, rfl, rfl, nofun⟩

/-- The exchange of a published message that moves on to PUBREL stays genuine. -/
theorem Genuine.released (hcheck : e.check = .ok ()) (hd : e.direction = .outbound)
    (ha : e.awaits = .pubRec) {reason : Reason} {v : Version}
    (hr : AckKind.pubRel.permits (reason.inVersion v)) : (e.released v reason).Genuine := by
  have hid : e.id ≠ 0 := (check_eq_ok_iff.1 hcheck).1
  have hq : e.qos = .exactlyOnce := by
    rcases awaits_outbound hcheck hd with ⟨h, -⟩ | ⟨-, hq⟩ | ⟨-, hq⟩
    · cases ha.symm.trans h
    · exact hq
    · exact hq
  obtain ⟨id, d, a, q, frame, w⟩ := e
  obtain rfl : d = .outbound := hd
  obtain rfl : q = .exactlyOnce := hq
  exact .release hid hr

/-- An exchange whose frame is converted stays genuine. -/
theorem Genuine.reframed (h : e.Genuine) (hd : e.direction = .outbound) {v : Version}
    {frame : Bytes} (hc : Retained.convert e.frame e.version v = .ok frame) :
    (e.reframed frame v).Genuine := by
  cases h with
  | @publish w p id _ hsay hsound hid hq hdup hf =>
    obtain ⟨hsay', hf'⟩ := hsay.convert_inv hsound hf hc
    exact .publish (p := { p with version := v, properties := p.properties.inVersion v })
      hsay' (hsound.inVersion v) hid hq hdup hf'
  | receipt => cases hd
  | release hid hr =>
    obtain rfl := Except.ok.inj ((Retained.convert_ackBytes hid hr _ _).symm.trans hc)
    exact .release hid (AckKind.permits_inVersion hr _)

end Exchange

/-- The record that is stored or updated. -/
def Change.data? : Change → Option Bytes
  | .store _ data | .update _ data => some data
  | .erase _ => none

namespace Client

/-! ## Operations -/

namespace Op

/-- By hand an acknowledgment is given a reason that it may give. -/
def Permitted : Op → Prop
  | .request (.acknowledge kind _ reason) => kind.permits reason
  | _ => True

/-- A message has properties that can be built. -/
def Built : Op → Prop
  | .request (.publish p) | .request (.publishWithId _ p) => p.properties.Built
  | _ => True

end Op

variable {c : Client} {op : Op} {Q : Exchange → Prop}

theorem Op.Publishing.sound {p : Publish} (h : op.Publishing p) (hop : op.Built) :
    p.properties.Sound := by
  have hbuilt : p.properties.Built := by cases h <;> exact hop
  exact hbuilt.sound

/-- The reasons of automatic acknowledgments are permitted in any case. -/
theorem Gives.permits {kind : AckKind} {id : UInt16} {reason : Reason}
    (h : c.Gives op kind id reason) (hop : op.Permitted) : kind.permits reason := by
  cases h with
  | byHand => exact hop
  | received | released => exact AckKind.permits_success _
  | ended _ _ hr => rcases hr with rfl | rfl <;> rfl

/-- What an operation starts, moves on or converts is genuine. -/
theorem sustains_genuine (hb : op.Built)
    (hr : ∀ kind id reason, c.Gives op kind id reason → kind.permits (reason.inVersion c.version))
    (hrestore : ∀ id data, op = .restore id data →
      ∃ e : Exchange, e.Genuine ∧ data = Record.encode e) :
    c.Sustains op Exchange.Genuine where
  publish p id frame hp hq hid hf := by
    let q : Publish := { p with version := c.version, dup := false, id := some id }
    have hsay : q.asSaid.Sayable c.version :=
      Publish.sayable_asSaid (p := q) rfl (fun h => absurd h hq) fun _ => ⟨id, hid, rfl⟩
    rw [← Packet.toBytes_asSaid] at hf
    exact .publish (p := q.asSaid) hsay ((hp.sound hb).inVersion c.version) rfl hq rfl hf
  receipt id reason hgives hid _ := .receipt hid (hr .pubRec id reason hgives)
  release e reason _ _ hcheck hd ha hgives :=
    .released hcheck hd ha (hr .pubRel e.id reason hgives)
  convert _ _ _ he _ hd _ hc := he.reframed hd hc
  restore id data e' hop hdecode := by
    obtain ⟨e, he, rfl⟩ := hrestore id data hop
    rwa [Record.decode_encode_inv he.check hdecode]

/-- A record that is stored or updated is that of an exchange as in `Q`. -/
theorem Stems.recorded {ch : Change} {data : Bytes} (h : c.Stems op Q (.persist ch))
    (hdata : ch.data? = some data) : ∃ e, Q e ∧ data = Record.encode e := by
  generalize ha : Action.persist ch = a at h
  cases h with
  | quiet h =>
    rw [← ha] at h
    cases h.2
  | started he | moved he =>
    cases ha
    exact ⟨_, he, (Option.some.inj hdata).symm⟩
  | erase =>
    cases ha
    cases hdata
  | packet | ack | retained | replay => cases ha

/-! ## Runs -/

/-- The operations of a new client one after the other. Those that take in no record are permitted,
and the records taken in were stored or updated in operations of that kind, of this client or of
another one. -/
inductive Regular : ClientOptions → List Op → Prop
  | none (options : ClientOptions) : Regular options []
  | next {options : ClientOptions} {ops : List Op} {op : Op} (h : Regular options ops)
      (hop : op.Permitted) (hb : op.Built) (hne : ∀ id data, op ≠ .restore id data) :
      Regular options (ops ++ [op])
  | restore {options options' : ClientOptions} {ops ops' : List Op} {id : UInt16} {ch : Change}
      {data : Bytes} (h : Regular options ops) (h' : Regular options' ops')
      (hch : ch ∈ changesOf ((new options').actionsOf ops')) (hdata : ch.data? = some data) :
      Regular options (ops ++ [.restore id data])

theorem Regular.append {options : ClientOptions} {ops ops' : List Op} (h : Regular options ops)
    (hops : ∀ op ∈ ops', op.Permitted ∧ op.Built) (hun : Unrestored ops') :
    Regular options (ops ++ ops') := by
  induction ops' generalizing ops with
  | nil => rwa [List.append_nil]
  | cons op ops' ih =>
    rw [List.append_cons]
    obtain ⟨hop, hb⟩ := hops op List.mem_cons_self
    exact ih (h.next hop hb hun.head)
      (fun op hop => hops op (List.mem_cons_of_mem _ hop)) hun.tail

/-- The exchanges that a run leaves and the records that it reports are genuine. -/
structure Authentic (options : ClientOptions) (ops : List Op) : Prop where
  ledger : ((new options).after ops).session.ledger.All Exchange.Genuine
  records : ∀ ch ∈ changesOf ((new options).actionsOf ops), ∀ data, ch.data? = some data →
    ∃ e : Exchange, e.Genuine ∧ data = Record.encode e

/-- One operation more leaves and reports genuine exchanges. -/
theorem Authentic.next {options : ClientOptions} {ops : List Op} (h : Authentic options ops)
    (hop : op.Permitted) (hb : op.Built) (hrestore : ∀ id data, op = .restore id data →
      ∃ e : Exchange, e.Genuine ∧ data = Record.encode e) : Authentic options (ops ++ [op]) := by
  have hbears := bears_step (wf_after (wf_new options) ops)
    (sustains_genuine hb (fun _ _ _ h => AckKind.permits_inVersion (h.permits hop) _) hrestore)
    h.ledger
  refine ⟨?_, fun ch hch data hdata => ?_⟩
  · rw [after_append]
    exact hbears.ledger
  · rw [actionsOf_append, changesOf_append, List.mem_append] at hch
    rcases hch with hch | hch
    · exact h.records ch hch data hdata
    · rw [actionsOf, actionsOf, List.append_nil] at hch
      exact (hbears.stems _ (mem_changesOf.1 hch)).recorded hdata

theorem Regular.authentic {options : ClientOptions} {ops : List Op} (h : Regular options ops) :
    Authentic options ops := by
  induction h with
  | none options => exact ⟨fun e he => by simp [after, new, Session.empty] at he, nofun⟩
  | next _ hop hb hne ih => exact ih.next hop hb fun id data heq => absurd heq (hne id data)
  | restore _ _ hch hdata ih ih' =>
    refine ih.next trivial trivial fun id data heq => ?_
    cases heq
    exact ih'.records _ hch _ hdata

/-- Every exchange in flight passes its check, and the frame that it retains is accepted in the
version of the exchange: as a packet of the type that the exchange retains, with its identifier and,
if it is a PUBLISH, with its quality of service and without the DUP bit. -/
theorem retained_frames_describe {options : ClientOptions} {ops : List Op}
    (h : Regular options ops) : ∀ e ∈ ((new options).after ops).session.ledger.toList,
      e.check = .ok () ∧
        ∃ p, Packet.decodeFrame e.frame e.version = .ok p ∧ Exchange.Describes p e :=
  fun e he => ⟨(h.authentic.ledger e he).check, (h.authentic.ledger e he).describes⟩

/-- A QoS 2 message goes on to PUBREL, and a QoS 1 message is published, both in v5.0. -/
def publishesTwo : List Op :=
  [.connect { clientId := "c", properties := { sessionExpiry := some 60 } } 0,
    .receive (.connAck ⟨false, .success, .empty, .v5⟩),
    .request (.publish ⟨"t", none, [1], .exactlyOnce, false, false, .empty, .v5⟩),
    .receive (.ack .pubRec (.ofReason 1 .success)),
    .request (.publish
      ⟨"t", none, [2], .atLeastOnce, false, false, Properties.empty.addUser "k" "v", .v5⟩)]

/-- The records of both messages are taken in. -/
def takesTwo : List Op :=
  [.restore 1 [1, 0, 7, 2, 5, 0, 1, 98, 2, 0, 1],
    .restore 2 [1, 0, 4, 1, 5, 0, 2, 50, 14, 0, 1, 116, 0, 2, 7, 38, 0, 1, 107, 0, 1, 118, 2]]

/-- The session is resumed in v3.1.1, and a message is received. -/
def resumesTwo : List Op :=
  [.connect { clientId := "c", cleanStart := false, version := .v311 } 0,
    .receive (.connAck ⟨true, .success, .empty, .v311⟩),
    .receive (.publish ⟨"t", some 7, [3], .exactlyOnce, false, false, .empty, .v311⟩),
    .request (.acknowledge .pubRec 7 .success)]

theorem regular_publishesTwo : Regular {} publishesTwo := by
  have hops : ∀ op ∈ publishesTwo, op.Permitted ∧ op.Built := by
    simp only [publishesTwo, List.forall_mem_cons]
    exact ⟨⟨trivial, trivial⟩, ⟨trivial, trivial⟩, ⟨trivial, .empty⟩, ⟨trivial, trivial⟩,
      ⟨trivial, .addUser "k" "v" .empty⟩, List.forall_mem_nil _⟩
  exact (Regular.none {}).append hops (by simp [Unrestored])

/-- Two records of one client are taken in by another, which converts them to its version. -/
theorem retained_frames_describe_converted :
    Regular { autoAck := false } (takesTwo ++ resumesTwo) ∧
      ((new { autoAck := false }).after (takesTwo ++ resumesTwo)).session.ledger.toList =
        [⟨1, .outbound, .pubComp, .exactlyOnce, [98, 2, 0, 1], .v311⟩,
          ⟨2, .outbound, .pubAck, .atLeastOnce, [50, 6, 0, 1, 116, 0, 2, 2], .v311⟩,
          ⟨7, .inbound, .pubRel, .exactlyOnce, [80, 2, 0, 7], .v311⟩] ∧
      ∀ e ∈ ((new { autoAck := false }).after (takesTwo ++ resumesTwo)).session.ledger.toList,
        e.check = .ok () ∧
          ∃ p, Packet.decodeFrame e.frame e.version = .ok p ∧ Exchange.Describes p e := by
  have hreports : changesOf ((new {}).actionsOf publishesTwo) =
      [.store (.outbound 1) [1, 0, 5, 2, 5, 0, 1, 52, 7, 0, 1, 116, 0, 1, 0, 1],
        .update (.outbound 1) [1, 0, 7, 2, 5, 0, 1, 98, 2, 0, 1],
        .store (.outbound 2)
          [1, 0, 4, 1, 5, 0, 2, 50, 14, 0, 1, 116, 0, 2, 7, 38, 0, 1, 107, 0, 1, 118, 2]] := by cbv
  have hreleased : Change.update (.outbound 1) [1, 0, 7, 2, 5, 0, 1, 98, 2, 0, 1] ∈
      changesOf ((new {}).actionsOf publishesTwo) := by
    rw [hreports]
    exact List.mem_cons_of_mem _ List.mem_cons_self
  have hpublished : Change.store (.outbound 2)
      [1, 0, 4, 1, 5, 0, 2, 50, 14, 0, 1, 116, 0, 2, 7, 38, 0, 1, 107, 0, 1, 118, 2] ∈
        changesOf ((new {}).actionsOf publishesTwo) := by
    rw [hreports]
    exact List.mem_cons_of_mem _ (List.mem_cons_of_mem _ List.mem_cons_self)
  have hfirst : Regular { autoAck := false } [.restore 1 [1, 0, 7, 2, 5, 0, 1, 98, 2, 0, 1]] :=
    .restore (.none _) regular_publishesTwo hreleased rfl
  have htaken : Regular { autoAck := false } takesTwo :=
    .restore hfirst regular_publishesTwo hpublished rfl
  have hregular : Regular { autoAck := false } (takesTwo ++ resumesTwo) := by
    refine htaken.append ?_ (by simp [resumesTwo, Unrestored])
    simp only [resumesTwo, List.forall_mem_cons]
    exact ⟨⟨trivial, trivial⟩, ⟨trivial, trivial⟩, ⟨trivial, trivial⟩, ⟨rfl, trivial⟩,
      List.forall_mem_nil _⟩
  exact ⟨hregular, by cbv, retained_frames_describe hregular⟩

end Client

end Mqtt
