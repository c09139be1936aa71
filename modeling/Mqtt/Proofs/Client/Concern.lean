import Mathlib
import Mqtt.Proofs.Client.Edits

/-!
# What an acknowledgment concerns

Published and received messages, SUBSCRIBE and UNSUBSCRIBE draw on the same numbers. Which of those
that wait under a number an acknowledgment means is decided by its type: `Packet.acknowledges?`. It
changes nothing else (`Session.SameElsewhere`), and nothing at all when nothing waits for it or when
it comes out of order: `acknowledgment_concerns`.
-/

namespace Mqtt

/-! ## What waits -/

/-- Something that waits for an acknowledgment. -/
inductive Waiting
  | exchange (k : Key)
  | subscribe (id : UInt16)
  | unsubscribe (id : UInt16)
  deriving DecidableEq

namespace Waiting

/-- The identifier that is held meanwhile. For a received message it is the server that holds it. -/
def held? : Waiting → Option UInt16
  | .exchange k => if k.direction = .outbound then some k.id else none
  | .subscribe id | .unsubscribe id => some id

end Waiting

/-- What waits for the next acknowledgment of a kind. -/
def AckKind.concern (kind : AckKind) (id : UInt16) : Waiting :=
  .exchange (if kind = .pubRel then .inbound id else .outbound id)

/-- What an acknowledgment from the server is for. -/
def Packet.acknowledges? : Packet → Option Waiting
  | .ack kind a => some (kind.concern a.id)
  | .subAck p => some (.subscribe p.id)
  | .unsubAck p => some (.unsubscribe p.id)
  | _ => none

/-- An acknowledgment is no packet that only clients send. -/
theorem Packet.not_clientOnly {p : Packet} {w : Waiting} (hw : p.acknowledges? = some w) :
    p.packetType ∉ [PacketType.connect, .subscribe, .unsubscribe, .pingReq] := by
  cases p with
  | ack kind a => cases kind <;> simp [Packet.packetType, AckKind.packetType]
  | subAck p | unsubAck p => simp [Packet.packetType]
  | _ => cases hw

namespace Session

/-- Whether something waits in a session. -/
def Expects (s : Session) : Waiting → Prop
  | .exchange k => k ∈ s.ledger.keys
  | .subscribe id => id ∈ s.subscribes
  | .unsubscribe id => id ∈ s.unsubscribes

/-- The sessions differ at most in something that waits and in the identifier it holds. -/
structure SameElsewhere (w : Waiting) (s t : Session) : Prop where
  /-- The other exchanges are the same, and in the same order. -/
  exchanges : t.ledger.toList.filter (.exchange ·.key ≠ w) =
    s.ledger.toList.filter (.exchange ·.key ≠ w)
  subscribes : ∀ id, .subscribe id ≠ w → t.subscribes[id]? = s.subscribes[id]?
  unsubscribes : ∀ id, .unsubscribe id ≠ w → t.unsubscribes[id]? = s.unsubscribes[id]?
  isHeld : ∀ id, w.held? ≠ some id → t.ids.isHeld id = s.ids.isHeld id
  expiry : t.expiry = s.expiry
  endedAt : t.endedAt = s.endedAt

theorem SameElsewhere.refl (w : Waiting) (s : Session) : SameElsewhere w s s :=
  ⟨rfl, fun _ _ => rfl, fun _ _ => rfl, fun _ _ => rfl, rfl, rfl⟩

variable {s : Session}

/-- Taking an identifier back leaves the others as they are. -/
theorem WF.isHeld_discard (hs : s.WF) {use : Use} {id j : UInt16} (hid : s.uses use id)
    (hj : j ≠ id) : (s.ids.discard id).isHeld j = s.ids.isHeld j := by
  have ht := IdPool.takesBack_discard hs.ids (hs.isHeld hid)
  rw [Bool.eq_iff_iff, ht.isHeld, and_iff_left hj]

theorem sameElsewhere_complete (hs : s.WF) (k : Key) :
    SameElsewhere (.exchange k) s (s.complete k).2 := by
  rw [hs.complete_eq]
  split
  · rename_i hk
    refine ⟨?_, fun _ _ => rfl, fun _ _ => rfl, fun j hj => ?_, rfl, rfl⟩
    · simp only [Ledger.toList_erase hs.ledger, List.filter_filter, ne_eq, Waiting.exchange.injEq,
        Bool.and_self]
    · obtain ⟨id, d⟩ := k
      cases d with
      | inbound => rfl
      | outbound =>
        have hid : s.uses .publish id := hk
        have hne : j ≠ id := fun h => hj (h ▸ rfl)
        exact hs.isHeld_discard hid hne
  · exact .refl _ s

theorem sameElsewhere_moved {e e' : Exchange} {l : Ledger} (hl : Ledger.Moved s.ledger e e' l) :
    SameElsewhere (.exchange e.key) s { s with ledger := l } := by
  refine ⟨?_, fun _ _ => rfl, fun _ _ => rfl, fun _ _ => rfl, rfl, rfl⟩
  simp only [ne_eq, Waiting.exchange.injEq, hl.toList, List.filter_map]
  -- the exchange that moved keeps its key, so it is left out on both sides
  have hkey : ∀ x, (if x.key = e.key then e' else x).key = x.key := fun x => by
    split
    · rename_i hx
      rw [hl.key, hx]
    · rfl
  have hrest : ∀ x ∈ s.ledger.toList.filter fun x => ¬x.key = e.key,
      (if x.key = e.key then e' else x) = x := fun x hx =>
    if_neg (by simpa using (List.mem_filter.1 hx).2)
  simp only [Function.comp_def, hkey]
  rw [List.map_congr_left hrest, List.map_id']

theorem sameElsewhere_completeSubscribe (hs : s.WF) (id : UInt16) :
    SameElsewhere (.subscribe id) s (s.completeSubscribe id).2 := by
  by_cases hid : id ∈ s.subscribes
  · obtain ⟨p, hp⟩ := Option.isSome_iff_exists.1 (Std.ExtTreeMap.mem_iff_isSome_getElem?.1 hid)
    rw [completeSubscribe, hp]
    refine ⟨rfl, fun j hj => ?_, fun _ _ => rfl, fun j hj => ?_, rfl, rfl⟩
    · have hne : id ≠ j := fun h => hj (h ▸ rfl)
      simp [discard, Std.ExtTreeMap.getElem?_erase, hne]
    · have huse : s.uses .subscribe id := hid
      exact hs.isHeld_discard huse fun h => hj (h ▸ rfl)
  · rw [completeSubscribe_of_not_mem hid]
    exact .refl _ s

theorem sameElsewhere_completeUnsubscribe (hs : s.WF) (id : UInt16) :
    SameElsewhere (.unsubscribe id) s (s.completeUnsubscribe id).2 := by
  by_cases hid : id ∈ s.unsubscribes
  · obtain ⟨p, hp⟩ := Option.isSome_iff_exists.1 (Std.ExtTreeMap.mem_iff_isSome_getElem?.1 hid)
    rw [completeUnsubscribe, hp]
    refine ⟨rfl, fun _ _ => rfl, fun j hj => ?_, fun j hj => ?_, rfl, rfl⟩
    · have hne : id ≠ j := fun h => hj (h ▸ rfl)
      simp [discard, Std.ExtTreeMap.getElem?_erase, hne]
    · have huse : s.uses .unsubscribe id := hid
      exact hs.isHeld_discard huse fun h => hj (h ▸ rfl)
  · rw [completeUnsubscribe_of_not_mem hid]
    exact .refl _ s

end Session

namespace Client

variable {c c' : Client} {acts : List Action}

/-! ## One acknowledgment -/

/-- The actions neither change a record nor close the connection. -/
def Quiet (acts : List Action) : Prop :=
  (∀ change, .persist change ∉ acts) ∧ .close ∉ acts ∧ .emit .close ∉ acts

/-- What becomes of a client when a packet concerns only one thing that waits: nothing else
changes, and nothing at all if it does not wait. -/
structure Concerns (c : Client) (w : Waiting) (acts : List Action) (c' : Client) : Prop where
  frame : c' = { c with session := c'.session }
  elsewhere : c.session.SameElsewhere w c'.session
  unexpected : ¬c.session.Expects w → c' = c ∧ Quiet acts

/-- What leaves the client as it was concerns nothing else. -/
theorem Concerns.same {w : Waiting} (h : ¬c.session.Expects w → Quiet acts) :
    Concerns c w acts c :=
  ⟨rfl, .refl w _, fun hw => ⟨rfl, h hw⟩⟩

/-- What is expected may change, and nothing else. -/
theorem Concerns.expected {w : Waiting} {s : Session} (hw : c.session.Expects w)
    (h : c.session.SameElsewhere w s) : Concerns c w acts { c with session := s } :=
  ⟨rfl, h, fun hn => absurd hw hn⟩

theorem concern_of_ne {kind : AckKind} (h : kind ≠ .pubRel) (id : UInt16) :
    kind.concern id = .exchange (.outbound id) := by
  rw [AckKind.concern, if_neg h]

theorem expects_of_mem {e : Exchange} {k : Key} (he : e ∈ c.session.ledger.toList)
    (hk : e.key = k) : c.session.Expects (.exchange k) :=
  Ledger.mem_keys.2 ⟨e, he, hk⟩

theorem Continues.concerns (hc : c.session.WF) {kind : AckKind} {a : Ack}
    (h : Continues c a kind acts c') : Concerns c (kind.concern a.id) acts c' := by
  cases h with
  | unsolicited => exact .same fun _ => by simp [Quiet]
  | outOfOrder hkind he hk =>
    rw [concern_of_ne hkind]
    exact .same fun hn => absurd (expects_of_mem he hk) hn
  | @settled _ e he hk ha =>
    have hd := (Exchange.key_eq_outbound.1 hk).2
    have hkind : kind ≠ .pubRel := by
      rintro rfl
      exact Exchange.awaits_ne_pubRel (hc.checks e he) hd ha
    rw [concern_of_ne hkind]
    exact .expected (expects_of_mem he hk) (Session.sameElsewhere_complete hc _)
  | released hk ha hr hauto hl =>
    have helsewhere := Session.sameElsewhere_moved hl
    rw [hk] at helsewhere
    exact .expected (expects_of_mem hl.mem hk) helsewhere
  | noted he hk => exact .same fun hn => absurd (expects_of_mem he hk) hn
  | releasedAgain he hk => exact .same fun hn => absurd (expects_of_mem he hk) hn
  | ended hauto hk => exact .expected hk (Session.sameElsewhere_complete hc _)
  | endedAgain | endNoted => exact .same fun _ => by simp [Quiet]

/-- An acknowledgment concerns what it is for. -/
theorem Handles.concerns (hc : c.session.WF) {p : Packet} {w : Waiting}
    (hw : p.acknowledges? = some w) (h : Handles c p acts c') : Concerns c w acts c' := by
  cases h with
  | ack h =>
    obtain rfl := Option.some.inj hw
    exact h.concerns hc
  | @subAck p h =>
    obtain rfl := Option.some.inj hw
    exact .expected h (Session.sameElsewhere_completeSubscribe hc p.id)
  | @unsubAck p h =>
    obtain rfl := Option.some.inj hw
    exact .expected h (Session.sameElsewhere_completeUnsubscribe hc p.id)
  | subAckUnknown | unsubAckUnknown => exact .same fun _ => by simp [Quiet]
  | connAck | publish | pingResp | closed => cases hw
  | clientOnly hp => exact absurd hp (Packet.not_clientOnly hw)

/-- What an acknowledgment does for which another one would have been in turn. -/
theorem Continues.out_of_order (hc : c.session.WF) {kind : AckKind} {a : Ack} {e : Exchange}
    (hkind : kind ≠ .pubRel) (he : e ∈ c.session.ledger.toList) (hk : e.key = .outbound a.id)
    (ha : e.awaits ≠ kind.packetType) (h : Continues c a kind acts c') :
    c' = c ∧ acts = if kind = .pubRec ∧ e.awaits = .pubComp then [.send e.frame]
      else [.emit (.error (.outOfOrder a.id e.awaits kind.packetType)), .close] := by
  have hsame : ∀ {x : Exchange}, x ∈ c.session.ledger.toList → x.key = .outbound a.id → x = e :=
    fun hx hxk => hc.ledger.eq_of_key_eq hx he (hxk.trans hk.symm)
  cases h with
  | unsolicited _ hn => exact absurd (Ledger.mem_keys.2 ⟨e, he, hk⟩) hn
  | outOfOrder _ hx hxk _ hrep =>
    obtain rfl := hsame hx hxk
    exact ⟨rfl, (if_neg fun h => hrep h.1 h.2).symm⟩
  | settled hx hxk hxa =>
    obtain rfl := hsame hx hxk
    exact absurd hxa ha
  | released hxk hxa _ _ hl =>
    obtain rfl := hsame hl.mem hxk
    exact absurd hxa ha
  | noted hx hxk hxa =>
    obtain rfl := hsame hx hxk
    exact absurd hxa ha
  | releasedAgain hx hxk hxa =>
    obtain rfl := hsame hx hxk
    exact ⟨rfl, (if_pos ⟨rfl, hxa⟩).symm⟩
  | ended | endedAgain | endNoted => exact absurd rfl hkind

/-! ## Every state -/

/-- An acknowledgment changes only what it is for, if that waits. Out of order it changes
nothing. -/
theorem acknowledgment_concerns (options : ClientOptions) (ops : List Op) {p : Packet} {w : Waiting}
    {op : Op} (hw : p.acknowledges? = some w) (hop : op = .receive p ∨ op = .handle p)
    (hconn : ((new options).after ops).isConnected) :
    let c := (new options).after ops
    let o := c.step op
    o.result = .ok none ∧
      o.client = { c with session := o.client.session } ∧
      c.session.SameElsewhere w o.client.session ∧
      (¬c.session.Expects w → o.client = c ∧ Quiet o.actions) ∧
      ∀ {kind : AckKind} {a : Ack} {e : Exchange}, p = .ack kind a → kind ≠ .pubRel →
        e ∈ c.session.ledger.toList → e.key = .outbound a.id → e.awaits ≠ kind.packetType →
        o.client = c ∧ o.actions =
          if kind = .pubRec ∧ e.awaits = .pubComp then [.send e.frame]
          else [.emit (.error (.outOfOrder a.id e.awaits kind.packetType)), .close] := by
  intro c o
  have hc : c.WF := wf_after (wf_new options) ops
  obtain ⟨acts, c', h, hhandle, hreceive⟩ := step_packet hc p
  have ho : o = ⟨.ok none, acts, c'⟩ := by
    rcases hop with rfl | rfl
    · exact hreceive hconn
    · exact hhandle
  rw [ho]
  have hconcerns := h.concerns hc.session hw
  refine ⟨rfl, hconcerns.frame, hconcerns.elsewhere, hconcerns.unexpected, ?_⟩
  rintro kind a e rfl hkind he hk ha
  cases h with
  | ack h => exact h.out_of_order hc.session hkind he hk ha
  | clientOnly hp => exact absurd hp (Packet.not_clientOnly hw)

/-- A message waits for PUBACK under identifier 1 and a SUBSCRIBE for SUBACK under 2. -/
def waitingTwice : List Op :=
  [.connect { clientId := "c" } 0, .receive (.connAck ⟨false, .success, .empty, .v5⟩),
    .request (.publish ⟨"t", none, [1], .atLeastOnce, false, false, .empty, .v5⟩),
    .request (.subscribe [⟨"t", { qos := .atLeastOnce }⟩] none)]

/-- PUBCOMP comes in place of PUBACK: the SUBSCRIBE that waits is not concerned. -/
theorem acknowledgment_concerns_pubComp :
    let c := (new {}).after waitingTwice
    let p := Packet.ack .pubComp (.ofReason 1 .success)
    let o := c.step (.receive p)
    p.acknowledges? = some (.exchange (.outbound 1)) ∧ c.isConnected ∧
      c.session.subscribes.keys = [2] ∧
      c.session.SameElsewhere (.exchange (.outbound 1)) o.client.session ∧
      o.client = c ∧ o.actions = [.emit (.error (.outOfOrder 1 .pubAck .pubComp)), .close] := by
  have hconn : ((new {}).after waitingTwice).isConnected := by cbv
  have hkeys : ((new {}).after waitingTwice).session.subscribes.keys = [2] := by cbv
  have hledger : ((new {}).after waitingTwice).session.ledger.toList =
      [⟨1, .outbound, .pubAck, .atLeastOnce, [50, 7, 0, 1, 116, 0, 1, 0, 1], .v5⟩] := by cbv
  intro c p o
  obtain ⟨-, -, helsewhere, -, horder⟩ :=
    acknowledgment_concerns {} waitingTwice (p := p) rfl (.inl rfl) hconn
  have hout := @horder .pubComp (.ofReason 1 .success) _ rfl (by decide)
    (hledger ▸ List.mem_cons_self) rfl (by decide)
  exact ⟨rfl, hconn, hkeys, helsewhere, hout⟩

end Client

end Mqtt
