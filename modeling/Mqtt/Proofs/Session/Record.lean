import Mqtt.Proofs.Session.Exchange
import Mqtt.Session.Record

/-!
# Records of exchanges

A record that is accepted holds a valid exchange and is the record that would be written for it
(`Record.decode_inv`), and the record of a valid exchange is read back (`Record.decode_encode`). All
that is not such a record is refused as corrupt: `Record.read_iff_written`.

A record has no length of its own. One that is cut short within its first seven octets is seen to
be, and one that is cut later is that of the same exchange with less of its frame:
`Record.decode_cut`.
-/

namespace Mqtt

namespace Record

/-- A number in a record is that of the value it stands for. -/
theorem known_inv {α : Type} {toByte : α → UInt8} {all : List α} {b : UInt8} {c : Corrupt} {a : α}
    (h : known (all.find? (toByte · == b)) c = .ok a) : toByte a = b := by
  unfold known at h
  split at h
  · rename_i hf
    cases h
    exact toByte_of_find? hf
  · cases h

theorem decode_inv {id : UInt16} {data : Bytes} {e : Exchange} (h : decode id data = .ok e) :
    e.id = id ∧ e.check = .ok () ∧ encode e = data := by
  unfold decode at h
  split at h
  · simp only [Except.unless_eq_ok_iff, Except.bind_eq_ok_iff, Except.mapError_eq_ok_iff,
      not_not] at h
    obtain ⟨rfl, direction, hd, awaits, ht, qos, hq, version, hv, rfl, h⟩ := h
    obtain ⟨rfl, hcheck⟩ := Exchange.checked_inv h
    refine ⟨rfl, hcheck, ?_⟩
    simp only [encode, known_inv hd, known_inv ht, known_inv hq, known_inv hv, Bytes.ofWord_word]
    rfl
  · cases h

/-- The record of an exchange is read back. -/
theorem decode_encode {e : Exchange} (h : e.check = .ok ()) : decode e.id (encode e) = .ok e := by
  obtain ⟨id, direction, awaits, qos, frame, version⟩ := e
  cases frame with
  | nil =>
    -- no type of packet has the number zero
    have htype := (Exchange.check_eq_ok_iff.1 h).2.2
    rw [Exchange.frameType, Exchange.retains] at htype
    split at htype <;> simp [PacketType.toByte] at htype
  | cons first rest =>
    have hchecked := Exchange.checked_eq_ok h
    simp only [encode, Bytes.ofWord, List.cons_append, List.nil_append, decode, ne_eq,
      not_true_eq_false, ↓reduceIte, known, Direction.ofByte?_toByte, PacketType.ofByte?_toByte,
      QoS.ofByte?_toByte, Version.ofByte?_toByte, Bytes.word_ofWord]
    change Except.mapError asCorrupt (Exchange.checked _) = _
    rw [hchecked]
    rfl

theorem decode_eq_ok_iff {id : UInt16} {data : Bytes} {e : Exchange} :
    decode id data = .ok e ↔ e.check = .ok () ∧ (e.id, encode e) = (id, data) := by
  constructor
  · intro h
    obtain ⟨rfl, hcheck, rfl⟩ := decode_inv h
    exact ⟨hcheck, rfl⟩
  · rintro ⟨hcheck, heq⟩
    cases heq
    exact decode_encode hcheck

/-- A record is read as the exchange it was written for. -/
theorem decode_encode_inv {id : UInt16} {e e' : Exchange} (he : e.check = .ok ())
    (h : decode id (encode e) = .ok e') : e' = e := by
  obtain ⟨rfl, -, hdata⟩ := decode_inv h
  have hid : e'.id = e.id := by
    have hword : Bytes.ofWord e'.id = Bytes.ofWord e.id :=
      congrArg (fun data => (data.drop 5).take 2) hdata
    rw [← Bytes.word_ofWord e'.id, ← Bytes.word_ofWord e.id]
    simp only [Bytes.ofWord, List.cons.injEq, and_true] at hword
    rw [hword.1, hword.2]
  rw [hid, decode_encode he] at h
  exact (Except.ok.inj h).symm

/-! ## Refusals -/

/-- If the result is an error, it is a corruption. -/
def OnlyCorrupt {α : Type} (r : Except Error α) : Prop := ∀ e, r = .error e → ∃ c, e = .corrupt c

section OnlyCorrupt

variable {α β : Type} {r : Except Error α} {f : α → Except Error β}

theorem OnlyCorrupt.bind (h : OnlyCorrupt r) (hf : ∀ a, OnlyCorrupt (f a)) :
    OnlyCorrupt (r >>= f) := by
  intro e he
  cases r with
  | error e' =>
    obtain rfl : e' = e := Except.error.inj he
    exact h e' rfl
  | ok a => exact hf a e he

theorem onlyCorrupt_throw (c : Corrupt) : OnlyCorrupt (throw (.corrupt c) : Except Error α) :=
  fun _ he => ⟨c, (Except.error.inj he).symm⟩

theorem onlyCorrupt_known (found : Option α) (c : Corrupt) : OnlyCorrupt (known found c) := by
  cases found with
  | none => exact onlyCorrupt_throw c
  | some a => nofun

theorem exists_asCorrupt_eq (e : Error) : ∃ c, asCorrupt e = .corrupt c := by
  cases e <;> exact ⟨_, rfl⟩

theorem onlyCorrupt_mapError (r : Except Error α) : OnlyCorrupt (r.mapError asCorrupt) := by
  intro e he
  cases r with
  | error e' =>
    obtain rfl : asCorrupt e' = e := Except.error.inj he
    exact exists_asCorrupt_eq e'
  | ok a => cases he

/-- What is corrupt under a condition goes on without it. -/
theorem OnlyCorrupt.unless {p : Prop} [Decidable p] (c : Corrupt) (h : OnlyCorrupt r) :
    OnlyCorrupt (if p then (throw (.corrupt c) : Except Error PUnit) >>= fun _ => r else r) := by
  split_ifs
  · exact (onlyCorrupt_throw c).bind fun _ => h
  · exact h

theorem onlyCorrupt_decode (id : UInt16) (data : Bytes) : OnlyCorrupt (decode id data) := by
  unfold decode
  split
  · exact .unless _ ((onlyCorrupt_known _ _).bind fun _ => (onlyCorrupt_known _ _).bind fun _ =>
      (onlyCorrupt_known _ _).bind fun _ => (onlyCorrupt_known _ _).bind fun _ =>
      .unless _ (onlyCorrupt_mapError _))
  · exact onlyCorrupt_throw _

end OnlyCorrupt

/-- Exactly the records of valid exchanges are accepted, each as the exchange that it was written
for. Whatever else is given is corrupt. -/
theorem read_iff_written (id : UInt16) (data : Bytes) :
    (∀ e, decode id data = .ok e ↔ e.check = .ok () ∧ (e.id, encode e) = (id, data)) ∧
    ((∀ e : Exchange, e.check = .ok () → (e.id, encode e) ≠ (id, data)) ↔
      ∃ c, decode id data = .error (.corrupt c)) := by
  refine ⟨fun e => decode_eq_ok_iff, fun hnone => ?_, ?_⟩
  · cases hread : decode id data with
    | error err =>
      obtain ⟨c, rfl⟩ := onlyCorrupt_decode id data err hread
      exact ⟨c, rfl⟩
    | ok e =>
      obtain ⟨hcheck, heq⟩ := decode_eq_ok_iff.1 hread
      exact absurd heq (hnone e hcheck)
  · rintro ⟨c, hc⟩ e hcheck heq
    cases hc.symm.trans (decode_eq_ok_iff.2 ⟨hcheck, heq⟩)

/-! ## Records cut short -/

/-- So many octets are never a record. -/
theorem decode_of_short {data : Bytes} (id : UInt16) (h : data.length ≤ 7) :
    decode id data = .error (.corrupt (.truncated data.length)) := by
  unfold decode
  split
  · simp only [List.length_cons] at h
    omega
  · rfl

/-- What is left of a record, if it is more than the seven octets in front of the frame, is the record
of the exchange with less of its frame. -/
theorem decode_cut {e : Exchange} {d : Bytes} (hcheck : e.check = .ok ())
    (hd : d <+: encode e) (hlong : 7 < d.length) :
    d.drop 7 <+: e.frame ∧ decode e.id d = .ok { e with frame := d.drop 7 } := by
  obtain ⟨t, ht⟩ := hd
  have hframe : d.drop 7 ++ t = e.frame := by
    rw [← List.drop_append_of_le_length (Nat.le_of_lt hlong), ht]
    rfl
  have hdata : encode { e with frame := d.drop 7 } = d := by
    have htake : d.take 7 = (encode e).take 7 := by
      rw [← ht, List.take_append_of_le_length (Nat.le_of_lt hlong)]
    rw [← List.take_append_drop 7 d, htake]
    rfl
  have hfirst : (d.drop 7).headD 0 = e.frame.headD 0 := by
    obtain ⟨x, b, hx⟩ := List.exists_cons_of_ne_nil (l := d.drop 7) (by simpa using hlong)
    rw [← hframe, hx]
    rfl
  have hcheck' : { e with frame := d.drop 7 }.check = .ok () :=
    Exchange.check_reframed e.version hcheck (by rw [hfirst]; rfl)
  refine ⟨⟨t, hframe⟩, ?_⟩
  have hread := decode_encode hcheck'
  rwa [hdata] at hread

end Record

end Mqtt
