import Mathlib
import Mqtt.Proofs.Client.Accepted
import Mqtt.Proofs.Client.ExactlyOnce
import Mqtt.Proofs.Client.Resumption

/-!
# Sessions that change their version

A message that was published in one version is sent again in another one, when the session is
resumed in it: its retained frame is read and written anew. For an exchange that this client has
started (`Owns`) the frame can be read, and it can be written unless the message has become too long
(`Exchange.FitsIn`); what is sent then says the same, as far as the version can (`Packet.Renders`).
`resumption_converts` puts it together. Later resumptions in that version convert nothing.
-/

namespace Mqtt

/-! ## Messages in another version -/

/-- The second packet sends the first again, which may be in another version. -/
structure Packet.Renders (old new : Version) (p q : Packet) : Prop where
  type : q.packetType = p.packetType
  id : q.id? = p.id?
  /-- Properties do not outlive a change of the version. -/
  message : ∀ m, p = .publish m → q = .publish { m with
    version := new
    dup := true
    properties := if old = new then m.properties else .empty }

/-- What the retained frame says can be written in a version: its body is not too long. -/
def Exchange.FitsIn (v : Version) (e : Exchange) : Prop :=
  ∀ p, (Packet.decodeFrame e.frame e.version >>= Packet.inVersion v) = .ok p →
    p.encodeBody.bytes.length ≤ VarInt.max

theorem Properties.fits_layoutFor_empty (v : Version) : (empty.layoutFor v).Fits := by
  cases v with
  | v311 => exact Layout.fits_nil
  | v5 =>
    change Layout.Fits [.number 0]
    simp [Part.Fits]

namespace Publish

variable {old new : Version} {p : Publish} {frame : Bytes}

/-- The message as another version says it. -/
def rendered (p : Publish) (v : Version) : Publish :=
  { p with version := v, properties := p.properties.inVersion v }

theorem inVersion_rendered (p : Publish) (v : Version) :
    (Packet.publish p).inVersion v = .ok (.publish (p.rendered v)) := by
  cases v <;> rfl

theorem Sayable.rendered (h : p.Sayable old) (new : Version) : (p.rendered new).Sayable new :=
  ⟨rfl, h.once, h.tracked, Properties.inVersion_v311⟩

/-- The properties are lost, or there were none. -/
theorem Sayable.properties_rendered (h : p.Sayable old) (hne : old ≠ new) :
    (p.rendered new).properties = .empty := by
  cases new with
  | v311 => rfl
  | v5 =>
    have hold : old = .v311 := by
      cases old with
      | v311 => rfl
      | v5 => exact absurd rfl hne
    exact h.plain hold

/-- What was written once can be written in another version, if its length can be. -/
theorem Sayable.toBytes_rendered (h : p.Sayable old) (hne : old ≠ new)
    (hf : (Packet.publish p).toBytes = .ok frame)
    (hlen : (p.rendered new).encodeBody.bytes.length ≤ VarInt.max) :
    ∃ frame', (Packet.publish (p.rendered new)).toBytes = .ok frame' := by
  have hsay : (Packet.publish p).Sayable old := h
  have hsay' : (Packet.publish (p.rendered new)).Sayable new := h.rendered new
  have hfits : (Packet.publish p).layout.Fits := by
    by_contra hfits
    obtain ⟨e, he⟩ := hsay.toBytes.2 hfits
    cases he.symm.trans hf
  have htopic : (Part.text p.topic).Fits :=
    (Layout.fits_cons.1 (Layout.fits_cons.1 (Layout.fits_cons.1 hfits).2).2).1
  have hbody : (p.rendered new).layout.Fits := by
    have hid : (p.rendered new).idLayout.Fits := by
      unfold idLayout
      split <;> simp [Part.Fits]
    refine Layout.fits_cons.2 ⟨htopic, Layout.fits_append.2 ⟨hid, Layout.fits_append.2 ⟨?_, ?_⟩⟩⟩
    · rw [h.properties_rendered hne]
      exact Properties.fits_layoutFor_empty new
    · simp [Part.Fits]
  have hsize : (p.rendered new).encodeBody.bytes.length = (p.rendered new).layout.size := by
    rw [(h.rendered new).writes_encodeBody.written hbody]
    exact Layout.length_bytes _
  have hnumber : (Part.number (p.rendered new).layout.size).Fits := hsize ▸ hlen
  exact ⟨_, hsay'.toBytes.1 (Layout.fits_cons.2 ⟨trivial, Layout.fits_cons.2 ⟨hnumber, hbody⟩⟩)⟩

end Publish

/-! ## Exchanges in another version -/

namespace Exchange

variable {e : Exchange} {v : Version}

/-- The frame of a genuine exchange can be converted if it fits. -/
theorem Genuine.convertible (h : e.Genuine) (hd : e.direction = .outbound)
    (hfits : e.version ≠ v → e.FitsIn v) : e.Convertible v := by
  intro hne
  have hfits := hfits hne
  cases h with
  | @publish w p id frame hsay hsound hid hq hdup hf =>
    have hread : Packet.decodeFrame frame w = .ok (.publish p) :=
      Packet.Sayable.decodeFrame_of_toBytes (p := .publish p) hsay hsound hf
    have hconvert : Retained.convert frame w v = (Packet.publish (p.rendered v)).toBytes := by
      rw [Retained.convert, hread]
      change ((Packet.publish p).inVersion v >>= Packet.toBytes) = _
      rw [Publish.inVersion_rendered]
      rfl
    have hlen := hfits (.publish (p.rendered v)) (by
      rw [hread]
      exact Publish.inVersion_rendered p v)
    rw [hconvert]
    exact hsay.toBytes_rendered hne hf hlen
  | receipt => cases hd
  | release hid hr => exact ⟨_, Retained.convert_ackBytes hid hr _ _⟩

theorem firstAwaited_ne_pubComp (q : QoS) : Client.Reaction.firstAwaited q ≠ .pubComp := by
  cases q <;> decide

/-- What sends a genuine exchange again in its own version. -/
theorem Genuine.renders_replay (h : e.Genuine) (hd : e.direction = .outbound) {p : Packet}
    (hread : Packet.decodeFrame e.frame e.version = .ok p) :
    ∃ q, Packet.decodeFrame e.replay e.version = .ok q ∧ p.Renders e.version e.version q := by
  have hcheck := h.check
  cases h with
  | @publish w p' id frame hsay hsound hid hq hdup hf =>
    have hread' : Packet.decodeFrame frame w = .ok (.publish p') :=
      Packet.Sayable.decodeFrame_of_toBytes (p := .publish p') hsay hsound hf
    obtain rfl : p = .publish p' := Except.ok.inj (hread.symm.trans hread')
    have hm := markDup_frame hcheck hd (firstAwaited_ne_pubComp p'.qos)
    refine ⟨_, hsay.decodeFrame_of_markDup hsound hq hdup hf hm, rfl, rfl, fun m hm => ?_⟩
    cases hm
    simp [hsay.version]
  | receipt => cases hd
  | @release w u id reason hid hr =>
    obtain rfl := Except.ok.inj (hread.symm.trans (Retained.decodeFrame_ackBytes hid hr w))
    exact ⟨_, Retained.decodeFrame_ackBytes hid hr w, rfl, rfl, nofun⟩

/-- What sends a genuine exchange again in another version. -/
theorem Genuine.renders_reframed (h : e.Genuine) (hd : e.direction = .outbound) {p : Packet}
    (hread : Packet.decodeFrame e.frame e.version = .ok p) (hv : e.version ≠ v) {frame : Bytes}
    (hf : Retained.convert e.frame e.version v = .ok frame) :
    ∃ q, Packet.decodeFrame (e.reframed frame v).replay v = .ok q ∧ p.Renders e.version v q := by
  have hcheck := check_reframed v h.check (Retained.type_of_convert hf)
  cases h with
  | @publish w p' id old hsay hsound hid hq hdup hold =>
    have hread' : Packet.decodeFrame old w = .ok (.publish p') :=
      Packet.Sayable.decodeFrame_of_toBytes (p := .publish p') hsay hsound hold
    obtain rfl : p = .publish p' := Except.ok.inj (hread.symm.trans hread')
    have hm := markDup_frame hcheck hd (firstAwaited_ne_pubComp p'.qos)
    obtain ⟨hsay', hf'⟩ := hsay.convert_inv hsound hold hf
    refine ⟨_, hsay'.decodeFrame_of_markDup (hsound.inVersion v) hq hdup hf' hm, rfl, rfl,
      fun m hm => ?_⟩
    cases hm
    rw [if_neg hv, ← hsay.properties_rendered hv]
    rfl
  | receipt => cases hd
  | @release w u id reason hid hr =>
    obtain rfl := Except.ok.inj (hread.symm.trans (Retained.decodeFrame_ackBytes hid hr w))
    obtain rfl := Except.ok.inj ((Retained.convert_ackBytes hid hr w v).symm.trans hf)
    have hr' := AckKind.permits_inVersion hr v
    exact ⟨_, Retained.decodeFrame_ackBytes hid hr' v, rfl, rfl, nofun⟩

/-- What sends a genuine exchange again says what its retained frame says. -/
theorem Genuine.renders (h : e.Genuine) (hd : e.direction = .outbound) (hconv : e.Convertible v) :
    ∃ p q, Packet.decodeFrame e.frame e.version = .ok p ∧ Describes p e ∧
      Packet.decodeFrame (e.inVersion v).replay v = .ok q ∧ p.Renders e.version v q := by
  obtain ⟨p, hread, hdescribes⟩ := h.describes
  by_cases hv : e.version = v
  · subst hv
    obtain ⟨q, hq⟩ := h.renders_replay hd hread
    rw [inVersion_of_eq rfl]
    exact ⟨p, q, hread, hdescribes, hq⟩
  · obtain ⟨frame, hf⟩ := hconv hv
    obtain ⟨q, hq⟩ := h.renders_reframed hd hread hv hf
    rw [inVersion_of_convert hv hf]
    exact ⟨p, q, hread, hdescribes, hq⟩

end Exchange

namespace Client

variable {c c' : Client} {op : Op} {acts : List Action} {k : Key} {data : Bytes}

/-! ## Exchanges of this client -/

/-- The exchange with a key was started by an operation of the client and has not ended since, and
its PUBREL was given no reason that PUBREL may not give. -/
def Owns (c : Client) (ops : List Op) (k : Key) : Prop :=
  ∃ before op after data, ops = before ++ op :: after ∧
    .persist (.store k data) ∈ ((c.after before).step op).actions ∧
    .persist (.erase k) ∉ ((c.after before).step op).client.actionsOf after ∧
    ∀ reason, .request (.acknowledge .pubRel k.id reason) ∈ after →
      AckKind.pubRel.permits reason

theorem Replays.starts_nothing {ks : List Key} {r : Except Error Unit}
    (h : Replays c ks r acts c') : .persist (.store k data) ∉ acts := by
  induction h with
  | done => simp
  | next _ _ h _ ih => cases h <;> simp [ih, Change.moved]
  | stop _ _ h => cases h; simp

theorem store_not_mem_erasures (l : Ledger) :
    .persist (.store k data) ∉ Reaction.erasures l := by
  simp [Reaction.erasures]

theorem Handles.stores {p : Packet} (h : Handles c p acts c')
    (hk : .persist (.store k data) ∈ acts) : k.direction = .inbound := by
  cases h with
  | connAck h =>
    cases h with
    | unexpected | refused => simp [failure] at hk
    | fresh => simp [store_not_mem_erasures, persist_not_mem_greeting] at hk
    | resumed _ _ _ h =>
      simp [persist_not_mem_greeting, h.starts_nothing, persist_not_mem_failureOf] at hk
  | publish h =>
    cases h with
    | tracked =>
      obtain ⟨rfl, -⟩ : k = .inbound _ ∧ _ := by simpa [Change.started] using hk
      rfl
    | plain | manual | once | zero | repeated => simp [failure] at hk
  | ack h => cases h <;> simp [failure, Change.moved] at hk
  | closed => split at hk <;> simp at hk
  | subAck | subAckUnknown | unsubAck | unsubAckUnknown | pingResp | clientOnly =>
    simp [failure] at hk

theorem Acknowledges.stores {id : UInt16} {reason : Reason} {kind : AckKind}
    (h : Acknowledges c id reason kind acts c') (hk : .persist (.store k data) ∈ acts) :
    k.direction = .inbound := by
  cases h with
  | pubRec =>
    obtain ⟨rfl, -⟩ : k = .inbound _ ∧ _ := by simpa [Change.started] using hk
    rfl
  | pubAck | pubRecAgain | pubRecRefusal | pubRel | pubRelAgain | pubComp | pubCompAgain =>
    simp [Change.moved] at hk

/-- Only messages that are published start outbound exchanges. -/
theorem Steps.publishes {a : Option UInt16} (h : Steps c op a acts c')
    (hd : k.direction = .outbound) (hk : .persist (.store k data) ∈ acts) :
    ∃ p a, op.Publishing p ∧ Publishes c p a acts c' := by
  have hne : k.direction ≠ .inbound := by rw [hd]; decide
  cases h with
  | publish _ h => exact ⟨_, _, .publish _, h⟩
  | publishWithId _ _ _ h => exact ⟨_, _, .publishWithId _ _, h⟩
  | receive _ h | handle h => exact absurd (h.stores hk) hne
  | acknowledge _ h => exact absurd (h.stores hk) hne
  | connect h => cases h <;> simp [store_not_mem_erasures] at hk
  | early => simp [failure] at hk
  | subscribe _ h | subscribeWithId _ _ h => cases h; simp at hk
  | unsubscribe _ h | unsubscribeWithId _ _ h => cases h; simp at hk
  | abandon h => cases h <;> simp at hk
  | ping h => cases h <;> simp at hk
  | disconnect h => cases h <;> simp [store_not_mem_erasures] at hk
  | connectionLost h => cases h <;> simp at hk
  | restore h => cases h; simp at hk

/-- The exchange of a message that is published is genuine. -/
theorem genuine_published {p : Publish} {id : UInt16} {frame : Bytes} (hb : op.Built)
    (hp : op.Publishing p) (hq : p.qos ≠ .atMostOnce) (hid : id ≠ 0)
    (hf : (Packet.publish { p with version := c.version, dup := false, id := some id }).toBytes =
      .ok frame) :
    (Exchange.mk id .outbound (Reaction.firstAwaited p.qos) p.qos frame c.version).Genuine := by
  have hpermitted : op.Permitted := by cases hp <;> trivial
  have hsustains : c.Sustains op Exchange.Genuine :=
    sustains_genuine hb (fun _ _ _ h => AckKind.permits_inVersion (h.permits hpermitted) _)
      fun id data heq => by cases hp <;> cases heq
  exact hsustains.publish hp hq hid hf

/-- There is an exchange with the key, and it is genuine. -/
def HoldsGenuine (k : Key) (c : Client) : Prop :=
  k ∈ c.session.ledger.keys ∧ c.session.ledger.All fun e => e.key = k → e.Genuine

theorem holdsGenuine_of_store (hc : c.WF) (hb : op.Built) (hd : k.direction = .outbound)
    (hk : .persist (.store k data) ∈ (c.step op).actions) :
    HoldsGenuine k (c.step op).client := by
  rcases step_cases hc op with ⟨e, h⟩ | ⟨a, acts, c', h, hs⟩ <;> rw [h] at hk ⊢
  · cases hk
  obtain ⟨p, a, hp, hpublishes⟩ := hs.publishes hd hk
  cases hpublishes with
  | once => simp at hk
  | @tracked id ids e l hq hid hf he hcheck hl =>
    obtain ⟨rfl, -⟩ : k = e.key ∧ _ := by simpa [Change.started] using hk
    have hne : id ≠ 0 := (IdPool.hands_of_claim hc.session.ids hid).ne_zero
    have hgenuine : e.Genuine := he ▸ genuine_published hb hp hq hne hf
    refine ⟨?_, fun x hx hxk => ?_⟩
    · change e.key ∈ l.keys
      rw [hl.keys]
      exact List.mem_append_right _ (List.mem_singleton_self _)
    · have hmem : e ∈ l.toList := by
        rw [hl.toList]
        exact List.mem_append_right _ (List.mem_singleton_self _)
      rwa [hl.wf.eq_of_key_eq hx hmem hxk]

/-- Only by hand a PUBREL could be given a reason that it may not give. -/
theorem Gives.permits_of_byHand {kind : AckKind} {id : UInt16} {reason : Reason}
    (h : c.Gives op kind id reason)
    (hop : op = .request (.acknowledge kind id reason) → kind.permits reason) :
    kind.permits reason := by
  cases h with
  | byHand => exact hop rfl
  | received | released => exact AckKind.permits_success _
  | ended _ _ hr => rcases hr with rfl | rfl <;> rfl

/-- What takes in no record keeps the exchange with a key genuine. -/
theorem sustains_genuine_at (hb : op.Built) (hd : k.direction = .outbound)
    (hreason : ∀ reason, op = .request (.acknowledge .pubRel k.id reason) →
      AckKind.pubRel.permits reason) (hop : ∀ id data, op ≠ .restore id data) :
    c.Sustains op fun e => e.key = k → e.Genuine where
  publish _ _ _ hp hq hid hf _ := genuine_published hb hp hq hid hf
  receipt _ _ _ _ _ hk := by
    rw [← hk] at hd
    cases hd
  release e reason _ _ hcheck hde ha hgives hk := by
    have hid : e.id = k.id := congrArg Key.id hk
    have hpermits : AckKind.pubRel.permits reason :=
      hgives.permits_of_byHand fun heq => hreason reason (hid ▸ heq)
    exact .released hcheck hde ha (AckKind.permits_inVersion hpermits _)
  convert e frame _ he _ hde _ hf hk := (he hk).reframed hde hf
  restore id data _ heq := absurd heq (hop id data)

/-- An exchange in flight stays genuine whatever records are taken in. -/
theorem holdsGenuine_step (hc : c.WF) (hb : op.Built) (hd : k.direction = .outbound)
    (hreason : ∀ reason, op = .request (.acknowledge .pubRel k.id reason) →
      AckKind.pubRel.permits reason)
    (hend : .persist (.erase k) ∉ (c.step op).actions) (h : HoldsGenuine k c) :
    HoldsGenuine k (c.step op).client := by
  obtain ⟨hk, hall⟩ := h
  refine ⟨mem_keys_step hc op hk hend, ?_⟩
  by_cases hop : ∃ id data, op = .restore id data
  · obtain ⟨id, data, rfl⟩ := hop
    rcases step_cases hc (.restore id data) with ⟨e, h⟩ | ⟨a, acts, c', h, hs⟩ <;> rw [h]
    · exact hall
    cases hs with
    | restore hs =>
      cases hs with
      | record _ _ hrestore =>
        obtain ⟨ids, l, rfl, hl, -⟩ := Session.restore_inv hrestore
        have hstarted := Ledger.started_of_insert hc.session.ledger hl
        -- the key is taken, so the record is that of another exchange
        exact hall.started (fun heq => absurd (heq ▸ hk) hstarted.fresh) hstarted
  · have hop : ∀ id data, op ≠ .restore id data := fun id data heq => hop ⟨id, data, heq⟩
    exact (bears_step hc (sustains_genuine_at hb hd hreason hop) hall).ledger

theorem holdsGenuine_after {ops : List Op} (hc : c.WF) (hb : ∀ op ∈ ops, op.Built)
    (hd : k.direction = .outbound)
    (hreason : ∀ reason, .request (.acknowledge .pubRel k.id reason) ∈ ops →
      AckKind.pubRel.permits reason)
    (hend : .persist (.erase k) ∉ c.actionsOf ops) (h : HoldsGenuine k c) :
    HoldsGenuine k (c.after ops) := by
  induction ops generalizing c with
  | nil => exact h
  | cons op ops ih =>
    rw [actionsOf, List.mem_append, not_or] at hend
    have hstep := holdsGenuine_step hc (hb op List.mem_cons_self) hd
      (fun reason heq => hreason reason (heq ▸ List.mem_cons_self)) hend.1 h
    exact ih (wf_step hc op) (fun op hop => hb op (List.mem_cons_of_mem _ hop))
      (fun reason hmem => hreason reason (List.mem_cons_of_mem _ hmem)) hend.2 hstep

/-- An exchange that a client has started is genuine. -/
theorem Owns.genuine {ops : List Op} (h : c.Owns ops k) (hc : c.WF) (hb : ∀ op ∈ ops, op.Built)
    (hd : k.direction = .outbound) :
    (c.after ops).session.ledger.All fun e => e.key = k → e.Genuine := by
  obtain ⟨before, op, after, data, rfl, hstore, hend, hreason⟩ := h
  have hwf : (c.after before).WF := wf_after hc before
  have hstarted := holdsGenuine_of_store hwf
    (hb op (List.mem_append_right _ List.mem_cons_self)) hd hstore
  rw [after_append]
  exact (holdsGenuine_after (wf_step hwf op)
    (fun op hop => hb op (List.mem_append_right _ (List.mem_cons_of_mem _ hop)))
    hd hreason hend hstarted).2

/-! ## The version stays -/

theorem Deeds.uniform {v : Version} {l m : Ledger} (hl : l.WF) (hv : c.SpeaksIn op v)
    (hu : Uniform v l) (h : Deeds c op l acts m) : Uniform v m := by
  induction h with
  | none => exact hu
  | next h _ ih => exact ih (h.wf hl) (h.uniform hl hv hu)

/-- While every connection is in one version, so are the outbound exchanges. -/
theorem uniform_after {v : Version} {ops : List Op} (hc : c.WF) (hun : Unrestored ops)
    (hv : c.SpeaksOnly v ops) (hu : Uniform v c.session.ledger) :
    Uniform v (c.after ops).session.ledger := by
  induction ops generalizing c with
  | nil => exact hu
  | cons op ops ih =>
    have hstep := (deeds_step hc hun.head).uniform hc.session.ledger (hv.head hc) hu
    exact ih (wf_step hc op) hun.tail hv.tail hstep

/-- Once everything is sent again, everything is in the version of the connection. -/
theorem Resumed.uniform {d : Client} {r : Except Error Unit} {es : List Exchange}
    (hes : ∀ e ∈ d.session.ledger.toList, e.direction = .outbound → e ∈ es)
    (hconv : ∀ e ∈ es, e.Convertible d.version) (h : Resumed d es r acts c') :
    Uniform d.version c'.session.ledger := by
  intro x hx hd
  rw [h.ledger, List.mem_map] at hx
  obtain ⟨e, he, rfl⟩ := hx
  by_cases hmem : e ∈ es
  · rw [if_pos hmem, (hconv e hmem).inVersion_eq]
  · rw [if_neg hmem] at hd
    exact absurd (hes e he hd) hmem

/-! ## Every resumption -/

/-- When the server has kept the session, every outbound exchange that this client has started is
sent again, in order and in the version of the connection; its record is updated before, if its
frame had to be converted. What is sent says what was retained. In that version nothing is converted
any more. -/
theorem resumption_converts (options : ClientOptions) {ops : List Op} {p : ConnAck}
    (hb : ∀ op ∈ ops, op.Built) (hp : ((new options).after ops).phase = .connecting)
    (hr : p.reason.isError = false) (hs : p.sessionPresent)
    (howns : ∀ e ∈ ((new options).after ops).session.ledger.toList, e.direction = .outbound →
      (new options).Owns ops e.key)
    (hfits : ∀ e ∈ ((new options).after ops).session.ledger.toList, e.direction = .outbound →
      e.version ≠ ((new options).after ops).version →
        e.FitsIn ((new options).after ops).version) :
    let c := (new options).after ops
    let v := c.version
    let o := c.step (.receive (.connAck p))
    let es := c.session.ledger.toList.filter (·.direction = .outbound)
    o.result = .ok none ∧ o.client.isConnected ∧
      o.actions = c.greeting p ++ es.flatMap (·.resumption v) ∧
      o.client.session.ledger.toList = c.session.ledger.toList.map (fun e =>
        if e.direction = .outbound then e.inVersion v else e) ∧
      (∀ e ∈ es, e.inVersion v = { e with frame := (e.inVersion v).frame, version := v } ∧
        ∃ m q, Packet.decodeFrame e.frame e.version = .ok m ∧ e.Describes m ∧
          Packet.decodeFrame (e.inVersion v).replay v = .ok q ∧ m.Renders e.version v q) ∧
      ∀ {between : List Op} {q : ConnAck}, Unrestored between → o.client.SpeaksOnly v between →
        let d := o.client.after between
        d.phase = .connecting → d.version = v → q.reason.isError = false → q.sessionPresent →
          (d.step (.receive (.connAck q))).actions =
            d.greeting q ++ d.session.ledger.outbound.map (Action.send ·.replay) ∧
          (d.step (.receive (.connAck q))).client.session.ledger = d.session.ledger := by
  intro c v o es
  have hc : c.WF := wf_after (wf_new options) ops
  have hgenuine : ∀ e ∈ es, e.Genuine := fun e he => by
    obtain ⟨hmem, hd⟩ := mem_outbound.1 he
    exact (howns e hmem hd).genuine (wf_new options) hb hd e hmem rfl
  have hconv : ∀ e ∈ es, e.Convertible v := fun e he => by
    obtain ⟨hmem, hd⟩ := mem_outbound.1 he
    exact (hgenuine e he).convertible hd (hfits e hmem hd)
  obtain ⟨acts, c', hresumed, hframe, hstep⟩ := step_resume hc (.inl rfl) hp hr hs hconv
  have ho : o = ⟨.ok none, c.greeting p ++ acts, c'⟩ := hstep
  have hv : (c.welcomed p).version = v := version_welcomed p
  have huniform : Uniform v c'.session.ledger := by
    rw [← hv] at hconv ⊢
    refine hresumed.uniform (fun e he hd => ?_) hconv
    rw [ledger_welcomed] at he
    exact mem_outbound.2 ⟨he, hd⟩
  rw [ho]
  refine ⟨rfl, ?_, ?_, ?_, fun e he => ?_, ?_⟩
  · dsimp only
    rw [hframe]
    rfl
  · rw [hresumed.actions, hv]
    rfl
  · dsimp only
    rw [hresumed.ledger, hv, ledger_welcomed]
    refine List.map_congr_left fun e he => ?_
    simp only [mem_outbound, he, true_and]
  · exact ⟨(hconv e he).inVersion_eq,
      (hgenuine e he).renders (mem_outbound.1 he).2 (hconv e he)⟩
  · intro between q hun hspeaks d hphase hversion hqr hqs
    have hd : c'.WF := by
      have := wf_step hc (.receive (.connAck p))
      rwa [hstep] at this
    have hu : Uniform d.version d.session.ledger := by
      rw [hversion]
      exact uniform_after hd hun hspeaks huniform
    rw [step_resume_uniform (wf_after hd between) (.inl rfl) hphase hqr hqs hu]
    exact ⟨rfl, ledger_welcomed d q⟩

theorem fitsIn_of_eq {e : Exchange} {v : Version} {p : Packet}
    (h : (Packet.decodeFrame e.frame e.version >>= Packet.inVersion v) = .ok p)
    (hlen : p.encodeBody.bytes.length ≤ VarInt.max) : e.FitsIn v := fun q hq => by
  obtain rfl := Except.ok.inj (h.symm.trans hq)
  exact hlen

/-- Both messages in flight were published by the client. -/
theorem owns_connectsAgain :
    (new {}).Owns connectsAgain (.outbound 1) ∧ (new {}).Owns connectsAgain (.outbound 2) := by
  let first : Op := .request (.publish ⟨"t", none, [1], .exactlyOnce, false, false, .empty, .v5⟩)
  let second : Op := .request (.publish
    ⟨"t", none, [2], .atLeastOnce, false, false, Properties.empty.addUser "k" "v", .v5⟩)
  have hquiet : ∀ (n : Nat) (id : UInt16) (reason : Reason),
      .request (.acknowledge .pubRel id reason) ∉ connectsAgain.drop n := by
    intro n id reason hmem
    have hmem := List.mem_of_mem_drop hmem
    simp [connectsAgain, publishesTwo] at hmem
  have hfirst : changesOf (((new {}).after (connectsAgain.take 2)).step first).actions =
      [.store (.outbound 1) [1, 0, 5, 2, 5, 0, 1, 52, 7, 0, 1, 116, 0, 1, 0, 1]] := by cbv
  have hsecond : changesOf (((new {}).after (connectsAgain.take 4)).step second).actions =
      [.store (.outbound 2)
        [1, 0, 4, 1, 5, 0, 2, 50, 14, 0, 1, 116, 0, 2, 7, 38, 0, 1, 107, 0, 1, 118, 2]] := by cbv
  have hkept : (changesOf ((((new {}).after (connectsAgain.take 2)).step
      first).client.actionsOf (connectsAgain.drop 3))).all (· ≠ .erase (.outbound 1)) = true := by
    cbv
  have hkept' : (changesOf ((((new {}).after (connectsAgain.take 4)).step
      second).client.actionsOf (connectsAgain.drop 5))).all (· ≠ .erase (.outbound 2)) = true := by
    cbv
  have hnever : ∀ {acts : List Action} {ch : Change},
      (changesOf acts).all (· ≠ ch) = true → .persist ch ∉ acts := fun hall hmem => by
    simpa using List.all_eq_true.1 hall _ (mem_changesOf.2 hmem)
  exact ⟨⟨connectsAgain.take 2, first, connectsAgain.drop 3, _, rfl,
      mem_changesOf.1 (hfirst ▸ List.mem_cons_self), hnever hkept,
      fun reason hmem => absurd hmem (hquiet 3 1 reason)⟩,
    ⟨connectsAgain.take 4, second, connectsAgain.drop 5, _, rfl,
      mem_changesOf.1 (hsecond ▸ List.mem_cons_self), hnever hkept',
      fun reason hmem => absurd hmem (hquiet 5 2 reason)⟩⟩

/-- The connection that resumes the session is lost as well, and another one is asked for. -/
def losesAgain : List Op :=
  [.connectionLost 3, .connect { clientId := "c", cleanStart := false, version := .v311 } 4]

/-- Two messages of v5.0 are sent again in v3.1.1, without a reason and without properties, and
when that connection is lost they are sent once more as they then are. -/
theorem resumption_converts_to_v311 :
    let c := (new {}).after connectsAgain
    let p : ConnAck := ⟨true, .success, .empty, .v311⟩
    let o := c.step (.receive (.connAck p))
    let d := o.client.after losesAgain
    c.phase = .connecting ∧ c.version = .v311 ∧ o.result = .ok none ∧ o.client.isConnected ∧
      o.actions.filterMap Action.frame? = [[98, 2, 0, 1], [58, 6, 0, 1, 116, 0, 2, 2]] ∧
      (d.step (.receive (.connAck p))).actions =
        d.greeting p ++ [.send [98, 2, 0, 1], .send [58, 6, 0, 1, 116, 0, 2, 2]] := by
  have hb : ∀ op ∈ connectsAgain, op.Built := by
    simp [connectsAgain, publishesTwo, Op.Built, Properties.Built.empty,
      Properties.Built.addUser "k" "v" .empty]
  have hstate : (fun c : Client => (c.phase, c.version, c.session.ledger.toList))
      ((new {}).after connectsAgain) = (.connecting, .v311,
        [⟨1, .outbound, .pubComp, .exactlyOnce, [98, 2, 0, 1], .v5⟩,
          ⟨2, .outbound, .pubAck, .atLeastOnce,
            [50, 14, 0, 1, 116, 0, 2, 7, 38, 0, 1, 107, 0, 1, 118, 2], .v5⟩,
          ⟨7, .inbound, .pubRel, .exactlyOnce, [80, 2, 0, 7], .v5⟩]) := by cbv
  simp only [Prod.mk.injEq] at hstate
  obtain ⟨hphase, hversion, hledger⟩ := hstate
  have howns : ∀ e ∈ ((new {}).after connectsAgain).session.ledger.toList,
      e.direction = .outbound → (new {}).Owns connectsAgain e.key := by
    rw [hledger]
    simp only [List.forall_mem_cons]
    exact ⟨fun _ => owns_connectsAgain.1, fun _ => owns_connectsAgain.2,
      fun h => Direction.noConfusion h, fun _ h => absurd h List.not_mem_nil⟩
  have hfits : ∀ e ∈ ((new {}).after connectsAgain).session.ledger.toList,
      e.direction = .outbound → e.version ≠ ((new {}).after connectsAgain).version →
        e.FitsIn ((new {}).after connectsAgain).version := by
    rw [hledger, hversion]
    simp only [List.forall_mem_cons]
    refine ⟨fun _ _ => ?_, fun _ _ => ?_, fun h => Direction.noConfusion h,
      fun _ h => absurd h List.not_mem_nil⟩
    · exact fitsIn_of_eq (p := .ack .pubRel (.ofReason 1 .success)) (by cbv) (by decide)
    · exact fitsIn_of_eq
        (p := .publish ⟨"t", some 2, [2], .atLeastOnce, false, false, .empty, .v311⟩)
        (by cbv) (by decide)
  let p : ConnAck := ⟨true, .success, .empty, .v311⟩
  have hframes : (((new {}).after connectsAgain).step
      (.receive (.connAck p))).actions.filterMap Action.frame? =
        [[98, 2, 0, 1], [58, 6, 0, 1, 116, 0, 2, 2]] := by cbv
  have hlater : (fun o : Client => (losesAgain.inits.all fun past =>
        !(o.after past).isConnected || (o.after past).version = .v311,
        (o.after losesAgain).phase, (o.after losesAgain).version,
        (o.after losesAgain).session.ledger.outbound.map (Action.send ·.replay)))
      (((new {}).after connectsAgain).step (.receive (.connAck p))).client =
        (true, .connecting, .v311, [.send [98, 2, 0, 1], .send [58, 6, 0, 1, 116, 0, 2, 2]]) := by
    cbv
  simp only [Prod.mk.injEq] at hlater
  obtain ⟨hspeaks, hlater, hspoken, houtbound⟩ := hlater
  obtain ⟨hresult, hconn, -, -, -, hagain⟩ :=
    resumption_converts {} (p := p) hb hphase rfl rfl howns hfits
  rw [hversion] at hagain
  have hsecond := (@hagain losesAgain p (by simp [Unrestored, losesAgain])
    (speaksOnly_iff.2 hspeaks) hlater hspoken rfl rfl).1
  rw [houtbound] at hsecond
  exact ⟨hphase, hversion, hresult, hconn, hframes, hsecond⟩

end Client

end Mqtt
