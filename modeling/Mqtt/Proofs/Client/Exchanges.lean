import Mqtt.Proofs.Client.Reaction
import Mqtt.Proofs.Session.Invariant

/-!
# Steps of exchanges

How the reactions run that requests and received packets share. Each reports the change that it
makes before it sends a frame:

* `runs_trackInbound` starts the exchange of a received message, `Exchange.receipt`;
* `runs_releaseOutbound` moves the exchange of a published message on, to `Exchange.released`;
* `runs_complete` ends an exchange, and `runs_purge` all of them;
* `runs_resend` sends the retained frame again.
-/

namespace Mqtt

/-- The exchange of a received QoS 2 message, after its PUBREC. -/
def Exchange.receipt (v : Version) (id : UInt16) (reason : Reason) : Exchange :=
  ⟨id, .inbound, .pubRel, .exactlyOnce, Retained.ackBytes v .pubRec id reason, v⟩

/-- The exchange of a published QoS 2 message, after its PUBREL. -/
def Exchange.released (e : Exchange) (v : Version) (reason : Reason) : Exchange :=
  { e with awaits := .pubComp, frame := Retained.ackBytes v .pubRel e.id reason }

namespace Exchange

@[simp] theorem key_receipt (v : Version) (id : UInt16) (reason : Reason) :
    (receipt v id reason).key = .inbound id := rfl

theorem check_receipt {v : Version} {id : UInt16} {reason : Reason} (hid : id ≠ 0) :
    (receipt v id reason).check = .ok () :=
  check_eq_ok_iff.2 ⟨hid, rfl, Retained.type_ackBytes v .pubRec id reason⟩

/-- Nothing is received under identifier zero. -/
theorem check_receipt_zero (v : Version) (reason : Reason) :
    (receipt v 0 reason).check = .error .zeroIdentifier := rfl

theorem check_released_eq {e : Exchange} {v : Version} {reason : Reason} (h : e.check = .ok ())
    (hd : e.direction = .outbound) (ha : e.awaits = .pubRec) :
    (e.released v reason).check = .ok () :=
  check_released h hd ha (Retained.type_ackBytes v .pubRel e.id reason)

end Exchange

namespace Session

variable {s : Session} {e : Exchange}

/-! ## Changing one exchange -/

theorem track_eq {l : Ledger} (h : s.ledger.insert e = .ok l) :
    s.track e = .ok (.started e, { s with ledger := l }) := by
  rw [track, h]
  rfl

/-- An exchange moves on if it may. -/
theorem advance_eq (hl : s.ledger.WF) {awaits : PacketType} {frame : Bytes}
    (he : e ∈ s.ledger.toList) (hc : { e with awaits, frame }.check = .ok ()) :
    ∃ l, Ledger.Moved s.ledger e { e with awaits, frame } l ∧
      s.advance e.key awaits frame =
        .ok (.moved { e with awaits, frame }, { s with ledger := l }) := by
  have hget : s.ledger.get? e.key = some e := hl.get?_eq_some_iff.2 ⟨he, rfl⟩
  have hf : { e with awaits, frame }.checked = .ok { e with awaits, frame } :=
    Exchange.checked_eq_ok hc
  obtain ⟨l, hm⟩ := Ledger.modify_eq_ok (f := fun e => { e with awaits, frame }.checked) hget hf
  obtain ⟨x, x', hx, hfx, hmoved⟩ := Ledger.moved_of_modify hl (fun a b hab => by
    rw [(Exchange.checked_inv hab).1]
    rfl) hm
  obtain rfl : e = x := by simpa [hget] using hx
  obtain rfl : { e with awaits, frame } = x' := by simpa [hf] using hfx
  refine ⟨l, hmoved, ?_⟩
  have hnow : l.get? e.key = some { e with awaits, frame } := hmoved.get?
  rw [advance, Ledger.update, hm]
  change (do return (← moved { s with ledger := l } e.key, { s with ledger := l })) = _
  rw [moved, hnow]
  rfl

/-- A retained frame is replaced if there is an exchange. -/
theorem reencode_eq (hl : s.ledger.WF) (frame : Bytes) (version : Version)
    (he : e ∈ s.ledger.toList) :
    ∃ l, Ledger.Moved s.ledger e { e with frame, version } l ∧
      s.reencode e.key frame version =
        .ok (.moved { e with frame, version }, { s with ledger := l }) := by
  have hget : s.ledger.get? e.key = some e := hl.get?_eq_some_iff.2 ⟨he, rfl⟩
  obtain ⟨l, hm⟩ := Ledger.modify_eq_ok (f := fun e => .ok { e with frame, version }) hget rfl
  obtain ⟨x, x', hx, hfx, hmoved⟩ := Ledger.moved_of_modify hl (fun a b hab => by
    cases hab
    rfl) hm
  obtain rfl : e = x := by simpa [hget] using hx
  cases hfx
  refine ⟨l, hmoved, ?_⟩
  have hnow : l.get? e.key = some { e with frame, version } := hmoved.get?
  rw [reencode, Ledger.replaceFrame, hm]
  change (do return (← moved { s with ledger := l } e.key, { s with ledger := l })) = _
  rw [moved, hnow]
  rfl

end Session

namespace Client

namespace Reaction

variable {c : Client} {e : Exchange}

/-! ## Sending -/

theorem runs_sendAck (kind : AckKind) (id : UInt16) (reason : Reason) :
    (sendAck kind id reason).Runs c (.ok ())
      [.send (Retained.ackBytes c.version kind id reason)] c := by
  exact runs_client.bind ((runs_lift_ok (Retained.ack_eq ..)).bind (runs_send _))

theorem runs_resend {k : Key} (hc : c.session.WF) (he : e ∈ c.session.ledger.toList)
    (hk : e.key = k) : (resend k).Runs c (.ok ()) [.send e.frame] c := by
  refine runs_session.bind ?_
  rw [hc.ledger.get?_eq_some_iff.2 ⟨he, hk⟩]
  exact runs_send _

/-! ## Starting and moving on -/

/-- A message is tracked once its exchange is started. -/
theorem runs_trackInbound_of_track {id : UInt16} {reason : Reason} {change : Change} {s : Session}
    (hid : id ≠ 0) (h : c.session.track (.receipt c.version id reason) = .ok (change, s)) :
    (trackInbound id reason).Runs c (.ok ())
      [.persist change, .send (Retained.ackBytes c.version .pubRec id reason)]
      { c with session := s } := by
  have hchecked : (Exchange.receipt c.version id reason).checked = .ok _ :=
    Exchange.checked_eq_ok (Exchange.check_receipt hid)
  refine runs_client.bind ((runs_lift_ok (Retained.ack_eq ..)).bind ?_)
  exact (runs_lift_ok hchecked).bind ((runs_record h).bind (runs_send _))

theorem runs_trackInbound (hc : c.session.WF) {id : UInt16} (hid : id ≠ 0)
    (hk : .inbound id ∉ c.session.ledger.keys) (reason : Reason) :
    ∃ l, Ledger.Started c.session.ledger (.receipt c.version id reason) l ∧
      (trackInbound id reason).Runs c (.ok ())
        [.persist (.started (.receipt c.version id reason)),
          .send (Retained.ackBytes c.version .pubRec id reason)]
        { c with session := { c.session with ledger := l } } := by
  obtain ⟨l, hl⟩ := Ledger.insert_eq_ok hc.ledger (e := .receipt c.version id reason) hk
  exact ⟨l, Ledger.started_of_insert hc.ledger hl,
    runs_trackInbound_of_track hid (Session.track_eq hl)⟩

theorem runs_trackInbound_zero (reason : Reason) :
    (trackInbound 0 reason).Runs c (.error .zeroIdentifier) [] c := by
  have hchecked := Exchange.checked_eq_error (Exchange.check_receipt_zero c.version reason)
  refine runs_client.bind ((runs_lift_ok (Retained.ack_eq ..)).bind ?_)
  exact (runs_lift_error hchecked).bind_error

/-- A message is released once its exchange has moved on. -/
theorem runs_releaseOutbound_of_advance {id : UInt16} {reason : Reason} {change : Change}
    {s : Session} (h : c.session.advance (.outbound id) .pubComp
      (Retained.ackBytes c.version .pubRel id reason) = .ok (change, s)) :
    (releaseOutbound id reason).Runs c (.ok ())
      [.persist change, .send (Retained.ackBytes c.version .pubRel id reason)]
      { c with session := s } := by
  refine runs_client.bind ((runs_lift_ok (Retained.ack_eq ..)).bind ?_)
  exact (runs_record h).bind (runs_send _)

theorem runs_releaseOutbound (hc : c.session.WF) {id : UInt16} (he : e ∈ c.session.ledger.toList)
    (hk : e.key = .outbound id) (ha : e.awaits = .pubRec) (reason : Reason) :
    ∃ l, Ledger.Moved c.session.ledger e (e.released c.version reason) l ∧
      (releaseOutbound id reason).Runs c (.ok ())
        [.persist (.moved (e.released c.version reason)),
          .send (Retained.ackBytes c.version .pubRel id reason)]
        { c with session := { c.session with ledger := l } } := by
  obtain ⟨rfl, hd⟩ := Exchange.key_eq_outbound.1 hk
  have hcheck : (e.released c.version reason).check = .ok () :=
    Exchange.check_released_eq (hc.checks e he) hd ha
  obtain ⟨l, hl, hadvance⟩ := Session.advance_eq hc.ledger he hcheck
  rw [hk] at hadvance
  exact ⟨l, hl, runs_releaseOutbound_of_advance hadvance⟩

/-! ## Ending -/

theorem runs_complete (hc : c.session.WF) {k : Key} (hk : k ∈ c.session.ledger.keys) :
    (complete k).Runs c (.ok ()) [.persist (.erase k)]
      { c with session := (c.session.complete k).2 } := by
  have heq := hc.complete_eq k
  rw [if_pos hk] at heq
  refine runs_session.bind ?_
  rw [heq]
  exact (runs_updateSession _).bind (runs_perform _)

theorem runs_complete_none (hc : c.session.WF) {k : Key} (hk : k ∉ c.session.ledger.keys) :
    (complete k).Runs c (.ok ()) [] c := by
  have heq := hc.complete_eq k
  rw [if_neg hk] at heq
  refine runs_session.bind ?_
  rw [heq]
  exact (runs_updateSession _).bind (runs_pure ())

theorem runs_performAll (actions : List Action) :
    (actions.forM perform).Runs c (.ok ()) actions c := by
  induction actions with
  | nil => exact runs_pure ()
  | cons a actions ih => exact (runs_perform a).bind ih

/-- The actions that report the end of every exchange. -/
def erasures (l : Ledger) : List Action := l.keys.map fun k => .persist (.erase k)

theorem runs_purge :
    purge.Runs c (.ok ()) (erasures c.session.ledger) { c with session := c.session.purge.2 } := by
  refine runs_session.bind ((runs_updateSession _).bind ?_)
  have h := runs_performAll (c := { c with session := c.session.purge.2 })
    (erasures c.session.ledger)
  simpa only [erasures, Session.purge, List.forM_eq_forM, List.forM_map] using h

end Reaction

end Client

end Mqtt
