import Mathlib
import Mqtt.Proofs.Client.Deeds
import Mqtt.Proofs.Client.Origins
import Mqtt.Proofs.Packet.Role
import Mqtt.Proofs.Packet.Stream

/-!
# Records that are cut short

Every frame that a client retains is whole (`Packet.Whole`): behind its header stand as many octets
as the header says. A frame that is cut short is not, and is refused in either version
(`Packet.Whole.refused_cut`).

Taking in a record does not look at the length in the frame. So only a record that is cut within its
first seven octets, or just behind them, is refused as truncated; any other is taken in as an
exchange that retains a frame cut short: `Client.cut_record_read`. With the session resumed that
frame is sent: `Client.cut_record_replayed`.
-/

namespace Mqtt

namespace Packet

/-! ## Whole frames -/

/-- A header, and behind it as many octets as it says. -/
def Whole (frame : Bytes) : Prop :=
  ∃ h n, Header.peek? frame = .ok (some (h, n)) ∧ frame.length = n + h.length

/-- A written packet is a whole frame. -/
theorem whole_of_toBytes {p : Packet} {frame : Bytes} (h : p.toBytes = .ok frame) :
    Whole frame := by
  obtain ⟨body, -, hlen, rfl⟩ := parts_of_toBytes h
  refine ⟨_, _, Header.peek?_firstOctet ⟨p.packetType, p.flags, body.length⟩ hlen body, ?_⟩
  dsimp only
  rw [List.length_cons, List.length_append]
  omega

/-- The octets are refused since there are fewer than the header says, or none that say how many. -/
inductive CutShort (frame : Bytes) (v : Version) : Prop
  | header (h : decodeFrame frame v = .error (.malformed .truncatedHeader))
  | body {announced left : Nat} (hlt : left < announced)
      (h : decodeFrame frame v = .error (.malformed (.lengthMismatch announced left)))

/-- Nothing shorter than a whole frame is accepted in its place. -/
theorem Whole.refused_cut {frame d : Bytes} (h : Whole frame) (hd : d <+: frame) (hne : d ≠ frame)
    (v : Version) : CutShort d v := by
  obtain ⟨hd', n, hpeek, hlen⟩ := h
  obtain ⟨t, rfl⟩ := hd
  have ht : t ≠ [] := fun ht => hne (by rw [ht, List.append_nil])
  by_cases hnone : Header.peek? d = .ok none
  · refine .header ?_
    rw [decodeFrame, hnone]
    rfl
  · -- the header is that of the whole frame
    rw [Header.peek?_append hnone] at hpeek
    have hbounds := Header.bounds_of_peek? hpeek
    have htpos := List.length_pos_iff.2 ht
    have hlt : (d.drop n).length < hd'.length := by
      rw [List.length_append] at hlen
      rw [List.length_drop]
      omega
    refine .body hlt ?_
    simp only [decodeFrame, hpeek, bind, Except.bind, if_neg (Nat.ne_of_lt hlt)]

end Packet

namespace Client

variable {c : Client} {op : Op} {options : ClientOptions} {ops : List Op}

/-! ## Retained frames -/

/-- A record that is taken in holds a whole frame. -/
def Op.RestoresWhole (op : Op) : Prop :=
  ∀ id data, op = .restore id data → Packet.Whole (data.drop 7)

/-- Every frame that is retained was written by the client, or is taken in with a record. -/
theorem sustains_whole (hop : op.RestoresWhole) :
    c.Sustains op fun e => Packet.Whole e.frame where
  publish _ _ _ _ _ _ hf := Packet.whole_of_toBytes hf
  receipt _ _ _ _ _ := Packet.whole_of_toBytes (Retained.ack_eq ..)
  release _ _ _ _ _ _ _ _ := Packet.whole_of_toBytes (Retained.ack_eq ..)
  convert _ _ _ _ _ _ _ hc := by
    simp only [Retained.convert, Except.bind_eq_ok_iff] at hc
    obtain ⟨_, -, _, -, hf⟩ := hc
    exact Packet.whole_of_toBytes hf
  restore id data e heq hdecode := by
    obtain ⟨-, -, rfl⟩ := Record.decode_inv hdecode
    exact hop id _ heq

theorem whole_after (hops : ∀ op ∈ ops, op.RestoresWhole) :
    ((new options).after ops).session.ledger.All fun e => Packet.Whole e.frame :=
  (throughout_of_forall (P := fun _ op => op.RestoresWhole) fun op hop _ => hops op hop).ledger
    sustains_whole

/-! ## Their records -/

/-- What is left of the record of an exchange in flight is refused as truncated if it has seven
octets or less. Otherwise it is read as the same exchange with less of its frame; but no decoder
would accept that frame. -/
theorem cut_record_read {e : Exchange} (he : e ∈ ((new options).after ops).session.ledger.toList)
    {d : Bytes} (hd : d <+: Record.encode e) (hne : d ≠ Record.encode e) :
    (d.length ≤ 7 → Record.decode e.id d = .error (.corrupt (.truncated d.length))) ∧
    (7 < d.length → Record.decode e.id d = .ok { e with frame := d.drop 7 } ∧
      ((∀ op ∈ ops, op.RestoresWhole) → ∀ v, Packet.CutShort (d.drop 7) v)) := by
  refine ⟨Record.decode_of_short e.id, fun hlong => ?_⟩
  have hcheck := (wf_after (wf_new options) ops).session.checks e he
  obtain ⟨hframe, hread⟩ := Record.decode_cut hcheck hd hlong
  refine ⟨hread, fun hops v => (whole_after hops e he).refused_cut hframe (fun heq => hne ?_) v⟩
  have hdata := (Record.decode_inv hread).2.2
  rw [heq] at hdata
  exact hdata.symm

/-- A message is published at QoS 1. -/
def publishesOne : List Op :=
  [.connect { clientId := "c", properties := { sessionExpiry := some 60 } } 0,
    .receive (.connAck ⟨false, .success, .empty, .v5⟩),
    .request (.publish ⟨"t", none, [120], .atLeastOnce, false, false, .empty, .v5⟩)]

/-- The record of that message without its last octet, which is the payload. -/
def cutRecord : Bytes := [1, 0, 4, 1, 5, 0, 1, 50, 7, 0, 1, 116, 0, 1, 0]

/-- The exchange in flight, with a frame. -/
def publishedOne (frame : Bytes) : Exchange := ⟨1, .outbound, .pubAck, .atLeastOnce, frame, .v5⟩

theorem cut_record_read_payload :
    publishedOne [50, 7, 0, 1, 116, 0, 1, 0, 120] ∈
        ((new {}).after publishesOne).session.ledger.toList ∧
      Record.encode (publishedOne [50, 7, 0, 1, 116, 0, 1, 0, 120]) = cutRecord ++ [120] ∧
      Record.decode 1 cutRecord = .ok (publishedOne [50, 7, 0, 1, 116, 0, 1, 0]) ∧
      ∀ v, Packet.CutShort [50, 7, 0, 1, 116, 0, 1, 0] v := by
  have hmem : publishedOne [50, 7, 0, 1, 116, 0, 1, 0, 120] ∈
      ((new {}).after publishesOne).session.ledger.toList := by
    rw [show ((new {}).after publishesOne).session.ledger.toList =
      [publishedOne [50, 7, 0, 1, 116, 0, 1, 0, 120]] by cbv]
    exact List.mem_singleton_self _
  have hwhole : ∀ op ∈ publishesOne, op.RestoresWhole := by
    simp [publishesOne, Op.RestoresWhole]
  obtain ⟨hread, hcut⟩ := (cut_record_read hmem (d := cutRecord) ⟨[120], rfl⟩ (by decide)).2
    (by decide)
  exact ⟨hmem, rfl, hread, hcut hwhole⟩

/-- What is left of the record is taken in, and the session is resumed. -/
def resumesCut : List Op :=
  [.restore 1 cutRecord, .connect { clientId := "c", cleanStart := false } 0,
    .receive (.connAck ⟨true, .success, .empty, .v5⟩)]

/-- The record of a message loses its last octet. It is read all the same and taken in, and the
PUBLISH is sent again as a frame with six octets behind a header that says seven. -/
theorem cut_record_replayed :
    changesOf ((new {}).actionsOf publishesOne) = [.store (.outbound 1) (cutRecord ++ [120])] ∧
    Record.decode 1 cutRecord = .ok (publishedOne [50, 7, 0, 1, 116, 0, 1, 0]) ∧
    ((new {}).after resumesCut).session.ledger.toList =
      [publishedOne [50, 7, 0, 1, 116, 0, 1, 0]] ∧
    ((new {}).actionsOf resumesCut).getLast? = some (.send [58, 7, 0, 1, 116, 0, 1, 0]) ∧
    Packet.decodeFrame [58, 7, 0, 1, 116, 0, 1, 0] .v5 =
      .error (.malformed (.lengthMismatch 7 6)) := by
  refine ⟨by cbv, by decide, by cbv, by cbv, by decide⟩

end Client

end Mqtt
