import Mqtt.Proofs.Packet.Frame

/-!
# What an exchange can be

`Exchange.check_eq_ok_iff` says what `check` asks of an exchange, and `awaits_inbound`,
`awaits_outbound` what an exchange that passes it can wait for. Two changes keep an exchange valid:
moving on to PUBREL (`check_released`) and retaining the same packet in another version
(`check_reframed`).
-/

namespace Mqtt

namespace Exchange

variable {e : Exchange}

theorem key_eq_outbound {id : UInt16} :
    e.key = .outbound id ↔ e.id = id ∧ e.direction = .outbound := by
  simp [key, Key.outbound]

theorem key_eq_inbound {id : UInt16} :
    e.key = .inbound id ↔ e.id = id ∧ e.direction = .inbound := by
  simp [key, Key.inbound]

theorem check_eq_ok_iff : e.check = .ok () ↔
    e.id ≠ 0 ∧ canAwait e.direction e.qos e.awaits ∧ e.frameType = e.retains.toByte := by
  unfold check
  by_cases hid : e.id = 0
  · simp [hid]
  by_cases hawaits : canAwait e.direction e.qos e.awaits
  · by_cases hframe : e.frameType = e.retains.toByte <;> simp [hid, hawaits, hframe]
  · simp [hid, hawaits]

theorem checked_eq_ok (h : e.check = .ok ()) : e.checked = .ok e := by
  rw [checked, h]
  rfl

theorem checked_inv {e' : Exchange} (h : e.checked = .ok e') : e' = e ∧ e.check = .ok () := by
  simp only [checked, Except.bind_eq_ok_iff, Except.pure_eq_ok_iff] at h
  obtain ⟨u, hu, rfl⟩ := h
  exact ⟨rfl, hu⟩

theorem checked_eq_error {err : Error} (h : e.check = .error err) : e.checked = .error err := by
  rw [checked, h]
  rfl

/-- The exchange of a received message waits for PUBREL at QoS 2. -/
theorem awaits_inbound (h : e.check = .ok ()) (hd : e.direction = .inbound) :
    e.awaits = .pubRel ∧ e.qos = .exactlyOnce := by
  have hawaits := (check_eq_ok_iff.1 h).2.1
  rw [hd] at hawaits
  cases hq : e.qos <;> simp [canAwait, hq] at hawaits
  exact ⟨hawaits, rfl⟩

/-- The exchange of a published message waits for PUBACK at QoS 1, and for PUBREC or PUBCOMP at
QoS 2. -/
theorem awaits_outbound (h : e.check = .ok ()) (hd : e.direction = .outbound) :
    e.awaits = .pubAck ∧ e.qos = .atLeastOnce ∨ e.awaits = .pubRec ∧ e.qos = .exactlyOnce ∨
      e.awaits = .pubComp ∧ e.qos = .exactlyOnce := by
  have hawaits := (check_eq_ok_iff.1 h).2.1
  rw [hd] at hawaits
  cases hq : e.qos <;> simp [canAwait, hq] at hawaits
  · exact .inl ⟨hawaits, rfl⟩
  · exact .inr (hawaits.imp (⟨·, rfl⟩) (⟨·, rfl⟩))

/-- Nothing that this client published waits for PUBREL. -/
theorem awaits_ne_pubRel (h : e.check = .ok ()) (hd : e.direction = .outbound) :
    e.awaits ≠ .pubRel := by
  rcases awaits_outbound h hd with ⟨ha, -⟩ | ⟨ha, -⟩ | ⟨ha, -⟩ <;> rw [ha] <;> decide

/-- An exchange moves on to PUBREL. -/
theorem check_released {frame : Bytes} (h : e.check = .ok ()) (hd : e.direction = .outbound)
    (ha : e.awaits = .pubRec) (hf : frame.headD 0 / 16 = PacketType.pubRel.toByte) :
    { e with awaits := .pubComp, frame }.check = .ok () := by
  have hq : e.qos = .exactlyOnce := by
    rcases awaits_outbound h hd with ⟨h, -⟩ | ⟨-, hq⟩ | ⟨-, hq⟩
    · rw [ha] at h
      cases h
    · exact hq
    · exact hq
  refine check_eq_ok_iff.2 ⟨(check_eq_ok_iff.1 h).1, ?_, ?_⟩
  · simp [canAwait, hd, hq]
  · simpa [frameType, retains, hd] using hf

/-- An exchange retains a packet of the same type. -/
theorem check_reframed {frame : Bytes} (v : Version) (h : e.check = .ok ())
    (hf : frame.headD 0 / 16 = e.frameType) : { e with frame, version := v }.check = .ok () := by
  obtain ⟨hid, hawaits, hframe⟩ := check_eq_ok_iff.1 h
  exact check_eq_ok_iff.2 ⟨hid, hawaits, hf.trans hframe⟩

/-- The exchange `e'` is a later state of `e`: one that waited for PUBREC may wait for PUBCOMP. -/
structure Follows (e e' : Exchange) : Prop where
  key : e'.key = e.key
  qos : e'.qos = e.qos
  awaits : e'.awaits = e.awaits ∨ e.awaits = .pubRec ∧ e'.awaits = .pubComp

theorem Follows.refl (e : Exchange) : Follows e e := ⟨rfl, rfl, .inl rfl⟩

theorem Follows.trans {a b c : Exchange} (hab : Follows a b) (hbc : Follows b c) : Follows a c where
  key := hbc.key.trans hab.key
  qos := hbc.qos.trans hab.qos
  awaits := by
    rcases hab.awaits with hab | ⟨hab, hb⟩ <;> rcases hbc.awaits with hbc | ⟨hbc, hc⟩
    · exact .inl (hbc.trans hab)
    · exact .inr ⟨hab.symm.trans hbc, hc⟩
    · exact .inr ⟨hab, hbc.trans hb⟩
    · rw [hb] at hbc
      cases hbc

end Exchange

end Mqtt
