import Mathlib
import Mqtt.Proofs.Client.Edits

/-!
# Failed attempts to connect

How long a session is kept is settled with a connection, and the time runs from the end of that
connection. An attempt to connect that fails is to change neither of the two. It does so in two
ways (`Distorts`): an attempt that asks for another expiry sets it whether or not it is accepted,
and a connection that is lost before it is accepted starts the time anew.

Whatever else is tried without success, the next connection forgets the session exactly if it has
run out: `attempts_keep_retention`. `retention_distorted` shows both ways of getting this wrong.
-/

namespace Mqtt

namespace Client

/-- The operation is part of an attempt to connect, or it needs a connection. -/
def Op.Attempting : Op → Prop
  | .restore _ _ | .abandon _ => False
  | .handle p => p.packetType = .connAck
  | _ => True

/-- The operation ends a connection and keeps the session. -/
inductive Ends (c : Client) (ended : Nat) : Op → Prop
  | lost (hconn : c.isConnected) : Ends c ended (.connectionLost ended)
  | disconnected (hconn : c.isConnected) (hr : c.session.expiry.retains) :
      Ends c ended (.disconnect ended)

/-- The operation leads to no connection, while the session is kept as `x` says since the last
connection ended. -/
structure Futile (x : Expiry) (ended : Nat) (c : Client) (op : Op) : Prop where
  /-- An attempt asks for the session and does not come too late. -/
  inTime : ∀ o now, op = .connect o now → c.phase = .disconnected →
    o.cleanStart = false ∧ x.isExpired ended now = false
  failing : (c.step op).client.isConnected = false

/-- The operation changes how long the session is kept. -/
inductive Distorts (x : Expiry) (c : Client) : Op → Prop
  /-- The attempt asks for another expiry. -/
  | expiry {o : ConnectOptions} {now : Nat} (hp : c.phase = .disconnected)
      (hx : Expiry.ofOptions o ≠ x) : Distorts x c (.connect o now)
  /-- The connection is lost before it is accepted, and the session is not kept for ever. -/
  | instant {now : Nat} (hp : c.phase = .connecting) (hx : x ≠ .never) :
      Distorts x c (.connectionLost now)

/-- There is no connection, and the session is kept as `x` says since the last one ended. -/
structure Awaits (x : Expiry) (ended : Nat) (c : Client) : Prop where
  unconnected : c.isConnected = false
  expiry : c.session.expiry = x
  endedAt : x = .never ∨ c.session.endedAt = some ended

variable {c c' : Client} {op : Op} {x : Expiry} {ended now : Nat} {acts : List Action}

theorem Awaits.hasExpired (h : c.Awaits x ended) (now : Nat) :
    c.session.hasExpired now = x.isExpired ended now := by
  rw [Session.hasExpired, h.expiry]
  rcases h.endedAt with rfl | hended
  · cases c.session.endedAt <;> rfl
  · rw [hended]

theorem Awaits.congr (h : c.Awaits x ended) (hun : c'.isConnected = false)
    (hx : c'.session.expiry = c.session.expiry) (ha : c'.session.endedAt = c.session.endedAt) :
    c'.Awaits x ended :=
  ⟨hun, hx.trans h.expiry, h.endedAt.imp_right ha.trans⟩

/-- Without a connection, one that is lost has not been accepted. -/
theorem Awaits.phase (h : c.Awaits x ended) (hp : c.phase ≠ .disconnected) :
    c.phase = .connecting := by
  have hun := h.unconnected
  rw [isConnected] at hun
  split at hun
  · cases hun
  · exact absurd ‹_› hp
  · assumption

/-- The end of a connection settles how long the session is kept. -/
theorem Ends.awaits (h : c.Ends ended op) :
    (c.step op).client.Awaits c.session.expiry ended ∧
      (c.step op).client.session.ledger = c.session.ledger := by
  cases h with
  | lost hconn =>
    obtain ⟨acts, c', h, hstep⟩ := step_connectionLost c ended
    rw [hstep]
    refine ⟨⟨by rw [isConnected, h.phase], h.expiry, .inr ?_⟩, h.ledger⟩
    cases h with
    | before hp => simp [isConnected, hp] at hconn
    | now => rfl
  | disconnected hconn hr =>
    obtain ⟨acts, c', h, hstep⟩ := step_disconnect hconn ended
    rw [hstep]
    cases h with
    | keeping =>
      exact ⟨⟨rfl, Session.expiry_dropRequests _, .inr rfl⟩, Session.ledger_dropRequests _⟩
    | forgetting _ _ hr' =>
      rw [hr] at hr'
      cases hr'

/-! ## Attempts -/

section Attempts

variable (h : c.Awaits x ended)
include h

/-- CONNACK changes nothing of the session if the connection is not accepted. -/
theorem Joins.awaits {p : ConnAck} (hj : Joins c p acts c') (hf : c'.isConnected = false) :
    c'.Awaits x ended ∧ c'.session.ledger = c.session.ledger := by
  cases hj with
  | unexpected => exact ⟨h, rfl⟩
  | refused => exact ⟨h.congr rfl rfl rfl, rfl⟩
  | fresh => cases hf
  | resumed _ _ _ hr =>
    rw [hr.frame] at hf
    cases hf

theorem Handles.awaits {p : Packet} (hh : Handles c p acts c') (hf : c'.isConnected = false) :
    c'.Awaits x ended ∧ (p.packetType = .connAck → c'.session.ledger = c.session.ledger) := by
  cases hh with
  | connAck hj => exact (hj.awaits h hf).imp_right fun heq _ => heq
  | publish hr => cases hr <;> exact ⟨h.congr hf rfl rfl, nofun⟩
  | @ack kind _ _ _ hk =>
    refine ⟨?_, by cases kind <;> nofun⟩
    cases hk <;> exact h.congr hf (by simp) (by simp)
  | subAck | unsubAck => exact ⟨h.congr hf (by simp) (by simp), nofun⟩
  | subAckUnknown | unsubAckUnknown | pingResp | closed | clientOnly => exact ⟨h, fun _ => rfl⟩

theorem Connects.awaits {o : ConnectOptions} (hf : c.Futile x ended (.connect o now))
    (hd : ¬c.Distorts x (.connect o now)) (hc : Connects c o now acts c') :
    c'.Awaits x ended ∧ c'.session.ledger = c.session.ledger := by
  cases hc with
  | keeping hp =>
    have hx : Expiry.ofOptions o = x := by_contra fun hx => hd (.expiry hp hx)
    exact ⟨⟨rfl, hx, h.endedAt⟩, rfl⟩
  | forgetting hp _ hforget =>
    obtain ⟨hclean, hexp⟩ := hf.inTime o now rfl hp
    rw [h.hasExpired, hclean, hexp] at hforget
    simp at hforget

theorem Loses.awaits (hd : ¬c.Distorts x (.connectionLost now)) (hl : Loses c now acts c') :
    c'.Awaits x ended ∧ c'.session.ledger = c.session.ledger := by
  refine ⟨?_, hl.ledger⟩
  cases hl with
  | before => exact h
  | now hp =>
    have hx : x = .never := by_contra fun hx => hd (.instant (h.phase hp) hx)
    exact ⟨rfl, (Session.expiry_dropRequests _).trans h.expiry, .inl hx⟩

/-- An operation that leads to no connection and does not distort anything changes nothing. -/
theorem awaits_step (hc : c.WF) (hf : c.Futile x ended op) (hd : ¬c.Distorts x op) :
    (c.step op).client.Awaits x ended ∧
      (op.Attempting → (c.step op).client.session.ledger = c.session.ledger) := by
  have hfailing := hf.failing
  rcases step_cases hc op with ⟨e, hstep⟩ | ⟨a, acts, c', hstep, hs⟩
  · rw [hstep]
    exact ⟨h, fun _ => rfl⟩
  rw [hstep] at hfailing ⊢
  have hun : ∀ {P : Prop}, c.isConnected → P := fun hconn => by
    rw [h.unconnected] at hconn
    cases hconn
  cases hs with
  | connect hconnects => exact (hconnects.awaits h hf hd).imp_right fun heq _ => heq
  | early => exact ⟨h, fun _ => rfl⟩
  | receive hp hh =>
    exact (hh.awaits h hfailing).imp_right fun heq _ => heq (hp.elim hun id)
  | handle hh => exact hh.awaits h hfailing
  | publish hconn | publishWithId hconn | subscribe hconn | subscribeWithId hconn
  | unsubscribe hconn | unsubscribeWithId hconn | acknowledge hconn => exact hun hconn
  | abandon ha => cases ha <;> exact ⟨h.congr hfailing (by simp) (by simp), False.elim⟩
  | ping hp => cases hp <;> exact ⟨h, fun _ => rfl⟩
  | disconnect hdis =>
    cases hdis with
    | keeping hconn | forgetting hconn => exact hun hconn
  | connectionLost hl => exact (hl.awaits h hd).imp_right fun heq _ => heq
  | restore hr =>
    cases hr with
    | record _ _ hrestore =>
      obtain ⟨ids, l, rfl, -⟩ := Session.restore_inv hrestore
      exact ⟨h.congr hfailing rfl rfl, False.elim⟩

theorem awaits_after (hc : c.WF) {ops : List Op}
    (hops : c.Throughout (fun c op => c.Futile x ended op ∧ ¬c.Distorts x op) ops) :
    (c.after ops).Awaits x ended ∧
      ((∀ op ∈ ops, op.Attempting) → (c.after ops).session.ledger = c.session.ledger) := by
  induction ops generalizing c with
  | nil => exact ⟨h, fun _ => rfl⟩
  | cons op ops ih =>
    obtain ⟨⟨hf, hd⟩, hrest⟩ := hops
    obtain ⟨hstep, hledger⟩ := awaits_step h hc hf hd
    obtain ⟨hafter, hsame⟩ := ih hstep (wf_step hc op) hrest
    exact ⟨hafter, fun hatt => (hsame fun op hop => hatt op (List.mem_cons_of_mem _ hop)).trans
      (hledger (hatt op List.mem_cons_self))⟩

/-- The next connection forgets the session exactly if the session has run out. -/
theorem Awaits.step_connect (hp : c.phase = .disconnected) {o : ConnectOptions} {frame : Bytes}
    (hclean : o.cleanStart = false) (hf : (Packet.connect (.ofOptions o)).toBytes = .ok frame)
    (now : Nat) :
    c.step (.connect o now) =
      if x.isExpired ended now then
        ⟨.ok none, Reaction.erasures c.session.ledger ++ [.send frame],
          connecting { c with session := c.session.purge.2 } o⟩
      else ⟨.ok none, [.send frame], c.connecting o⟩ := by
  obtain ⟨acts, c', hc, hstep⟩ := Client.step_connect hp hf now
  rw [hstep, ← h.hasExpired]
  cases hc with
  | keeping _ hf' _ hexp =>
    obtain rfl := Except.ok.inj (hf'.symm.trans hf)
    rw [hexp]
    rfl
  | forgetting _ hf' hforget =>
    obtain rfl := Except.ok.inj (hf'.symm.trans hf)
    have hexp : c.session.hasExpired now := hforget.resolve_left (by simp [hclean])
    rw [if_pos hexp]

end Attempts

/-- However a connection was made and ended, and whatever is tried then without success: the next
connection forgets the session if it has run out since that end, and keeps it if not. Attempts to
connect leave the session as it was in the meantime. -/
theorem attempts_keep_retention (options : ClientOptions) (now : Nat) {past attempts : List Op}
    {o : ConnectOptions} {frame : Bytes} :
    let c := (new options).after past
    let x := c.session.expiry
    let d := (c.step op).client.after attempts
    c.Ends ended op →
      (c.step op).client.Throughout (fun c op => c.Futile x ended op ∧ ¬c.Distorts x op) attempts →
      d.phase = .disconnected → o.cleanStart = false →
      (Packet.connect (.ofOptions o)).toBytes = .ok frame →
      d.step (.connect o now) =
          (if x.isExpired ended now then
            ⟨.ok none, Reaction.erasures d.session.ledger ++ [.send frame],
              connecting { d with session := d.session.purge.2 } o⟩
          else ⟨.ok none, [.send frame], d.connecting o⟩) ∧
        ((∀ op ∈ attempts, op.Attempting) → d.session.ledger = c.session.ledger) := by
  intro c x d hends hattempts hp hclean hf
  obtain ⟨hawaits, hledger⟩ := hends.awaits
  obtain ⟨hafter, hsame⟩ :=
    awaits_after hawaits (wf_step (wf_after (wf_new options) past) op) hattempts
  exact ⟨hafter.step_connect hp hclean hf now, fun hatt => (hsame hatt).trans hledger⟩

/-- To ask in v5.0 for a session that is kept for so many seconds. -/
def keepingFor (seconds : UInt32) : ConnectOptions :=
  { clientId := "c", cleanStart := false, properties := { sessionExpiry := some seconds } }

/-- A message is published in a session that is kept for a minute. -/
def publishesOnce : List Op :=
  [.connect (keepingFor 60) 0, .receive (.connAck ⟨false, .success, .empty, .v5⟩),
    .request (.publish ⟨"t", none, [1], .atLeastOnce, false, false, .empty, .v5⟩)]

/-- An attempt to resume the session is refused. -/
def attemptsOnce : List Op :=
  [.connect (keepingFor 60) 10, .receive (.connAck ⟨false, .serverBusy, .empty, .v5⟩)]

theorem futile_attemptsOnce :
    (((new {}).after publishesOnce).step (.connectionLost 5)).client.Throughout
      (fun c op => c.Futile (.after 60000) 5 op ∧ ¬c.Distorts (.after 60000) op) attemptsOnce := by
  refine ⟨⟨⟨fun o now hop _ => ?_, ?_⟩, fun hd => ?_⟩,
    ⟨⟨fun o now hop _ => ?_, ?_⟩, fun hd => ?_⟩, trivial⟩
  · cases hop
    exact ⟨rfl, rfl⟩
  · cbv
  · cases hd with
    | expiry _ hx => exact hx rfl
  · cases hop
  · cbv
  · cases hd

/-- After the refusal the session is kept until a minute after its connection was lost. -/
theorem attempts_keep_retention_refused :
    let c := (new {}).after publishesOnce
    let d := (c.step (.connectionLost 5)).client.after attemptsOnce
    let frame := [16, 19, 0, 4, 77, 81, 84, 84, 5, 0, 0, 60, 5, 17, 0, 0, 0, 60, 0, 1, 99]
    c.Ends 5 (.connectionLost 5) ∧ c.session.expiry = .after 60000 ∧
      (d.step (.connect (keepingFor 60) 60004)).actions = [.send frame] ∧
      (d.step (.connect (keepingFor 60) 60005)).actions =
        [.persist (.erase (.outbound 1)), .send frame] := by
  have hends : ((new {}).after publishesOnce).Ends 5 (.connectionLost 5) := .lost (by cbv)
  have hexpiry : ((new {}).after publishesOnce).session.expiry = .after 60000 := by cbv
  have hkeys : ((((new {}).after publishesOnce).step (.connectionLost 5)).client.after
      attemptsOnce).session.ledger.keys = [.outbound 1] := by cbv
  have hattempts := futile_attemptsOnce
  rw [← hexpiry] at hattempts
  have hp : ((((new {}).after publishesOnce).step (.connectionLost 5)).client.after
      attemptsOnce).phase = .disconnected := by cbv
  have hf : (Packet.connect (.ofOptions (keepingFor 60))).toBytes =
      .ok [16, 19, 0, 4, 77, 81, 84, 84, 5, 0, 0, 60, 5, 17, 0, 0, 0, 60, 0, 1, 99] := by cbv
  have hkept := (attempts_keep_retention {} 60004 hends hattempts hp rfl hf).1
  have hforgotten := (attempts_keep_retention {} 60005 hends hattempts hp rfl hf).1
  rw [hexpiry, if_neg (by decide)] at hkept
  rw [hexpiry, if_pos (by decide), Reaction.erasures, hkeys] at hforgotten
  exact ⟨hends, hexpiry, congrArg Outcome.actions hkept, congrArg Outcome.actions hforgotten⟩

/-- An attempt that asks for another expiry sets it although it is refused, and the session is
forgotten that was to be kept for ever. A connection that is lost before it is accepted starts the
time anew, and the session is kept that has run out. -/
theorem retention_distorted :
    let lasting := (new {}).after
      [.connect { clientId := "c", cleanStart := false, version := .v311 } 0,
        .receive (.connAck ⟨false, .success, .empty, .v311⟩),
        .request (.publish ⟨"t", none, [1], .atLeastOnce, false, false, .empty, .v311⟩)]
    let refused := lasting.after [.connectionLost 5,
      .connect { clientId := "c", cleanStart := false } 6,
      .receive (.connAck ⟨false, .serverBusy, .empty, .v5⟩)]
    let lost := ((new {}).after publishesOnce).after [.connectionLost 5,
      .connect (keepingFor 60) 40000, .connectionLost 40001]
    lasting.session.expiry = .never ∧
      changesOf (refused.step (.connect
        { clientId := "c", cleanStart := false, version := .v311 } 7)).actions =
          [.erase (.outbound 1)] ∧
      Expiry.isExpired (.after 60000) 5 60005 ∧
      changesOf (lost.step (.connect (keepingFor 60) 60005)).actions = [] ∧
      lost.session.ledger.keys = [.outbound 1] :=
  ⟨by cbv, by cbv, by decide, by cbv, by cbv⟩

end Client

end Mqtt
