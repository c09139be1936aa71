import Mqtt.Client.Connection
import Mqtt.Client.Request
import Mqtt.Proofs.Client.Exchanges

/-!
# What making and losing a connection does

`Connects`, `Disconnects` and `Loses` say how a connection is made and how it ends, `Restores` how
a record is taken in and `Pings` how a connection is kept alive. Forgetting the session reports the
end of every exchange.
-/

namespace Mqtt

namespace Client

/-- The client once CONNECT is sent. -/
def connecting (c : Client) (o : ConnectOptions) : Client :=
  { c with
    phase := .connecting
    version := o.version
    keepAlive := o.keepAliveSecs
    advertisedLimit := o.advertisedLimit
    session := { c.session with expiry := .ofOptions o } }

/-- A connection is started. -/
inductive Connects (c : Client) (o : ConnectOptions) (now : Nat) : List Action → Client → Prop
  | keeping {frame : Bytes} (hp : c.phase = .disconnected)
      (hf : (Packet.connect (.ofOptions o)).toBytes = .ok frame)
      (hclean : o.cleanStart = false) (hexp : c.session.hasExpired now = false) :
      Connects c o now [.send frame] (c.connecting o)
  /-- The session is forgotten, since that is asked for or since it has run out. -/
  | forgetting {frame : Bytes} (hp : c.phase = .disconnected)
      (hf : (Packet.connect (.ofOptions o)).toBytes = .ok frame)
      (hforget : o.cleanStart ∨ c.session.hasExpired now) :
      Connects c o now (Reaction.erasures c.session.ledger ++ [.send frame])
        (connecting { c with session := c.session.purge.2 } o)

/-- A connection is ended. -/
inductive Disconnects (c : Client) (now : Nat) : List Action → Client → Prop
  | keeping {frame : Bytes} (hconn : c.isConnected)
      (hf : (Packet.disconnect (.normal c.version)).toBytes = .ok frame)
      (hr : c.session.expiry.retains) :
      Disconnects c now [.send frame, .emit .close, .close]
        { c with
          phase := .disconnected
          session := { c.session.dropRequests with endedAt := some now } }
  | forgetting {frame : Bytes} (hconn : c.isConnected)
      (hf : (Packet.disconnect (.normal c.version)).toBytes = .ok frame)
      (hr : c.session.expiry.retains = false) :
      Disconnects c now
        (.send frame :: Reaction.erasures c.session.ledger ++ [.emit .close, .close])
        { c with phase := .disconnected, session := c.session.purge.2 }

/-- A connection is lost. -/
inductive Loses (c : Client) (now : Nat) : List Action → Client → Prop
  | before (hp : c.phase = .disconnected) : Loses c now [] c
  | now (hp : c.phase ≠ .disconnected) :
      Loses c now [.emit .close]
        { c with
          phase := .disconnected
          session := { c.session.dropRequests with endedAt := some now } }

/-- A record is taken in. -/
inductive Restores (c : Client) (id : UInt16) (data : Bytes) : List Action → Client → Prop
  | record {e : Exchange} {s : Session} (hp : c.phase = .disconnected)
      (hd : Record.decode id data = .ok e) (hs : c.session.restore e = .ok s) :
      Restores c id data [] { c with session := s }

/-- A connection is kept alive. -/
inductive Pings (c : Client) : List Action → Client → Prop
  | sent {frame : Bytes} (hconn : c.isConnected) (hf : Packet.pingReq.toBytes = .ok frame) :
      Pings c [.send frame] c
  | nothing (hconn : c.isConnected = false) : Pings c [] c

namespace Reaction

variable {c : Client}

/-- Without a connection one is started, if CONNECT can be written. -/
theorem runs_connect {o : ConnectOptions} {frame : Bytes} (hp : c.phase = .disconnected)
    (hf : (Packet.connect (.ofOptions o)).toBytes = .ok frame) (now : Nat) :
    ∃ acts c', (connect o now).Runs c (.ok ()) acts c' ∧ Connects c o now acts c' := by
  unfold connect
  by_cases hforget : o.cleanStart ∨ c.session.hasExpired now
  · refine ⟨_, _, runs_client.bind ?_, .forgetting hp hf hforget⟩
    rw [if_neg (by simp [isDisconnected, hp])]
    refine (runs_lift_ok hf).bind (runs_session.bind ?_)
    rw [if_pos (by simpa using hforget)]
    exact runs_purge.bind ((runs_update _).bind (runs_send frame))
  · obtain ⟨hclean, hexp⟩ := not_or.1 hforget
    refine ⟨_, _, runs_client.bind ?_,
      .keeping hp hf (by simpa using hclean) (by simpa using hexp)⟩
    rw [if_neg (by simp [isDisconnected, hp])]
    refine (runs_lift_ok hf).bind (runs_session.bind ?_)
    rw [if_neg (by simpa using hforget)]
    exact (runs_update _).bind (runs_send frame)

theorem settles_connect (o : ConnectOptions) (now : Nat) :
    (connect o now).Settles c fun _ => Connects c o now := by
  by_cases hp : c.phase = .disconnected
  · rcases hf : (Packet.connect (.ofOptions o)).toBytes with err | frame
    · refine runs_client.bind_settles ?_
      simp only [isDisconnected, hp, decide_true, Bool.not_true, Bool.false_eq_true, ↓reduceIte]
      exact (runs_lift_error hf).bind_error.settles_error
    · obtain ⟨acts, c', hrun, h⟩ := runs_connect hp hf now
      exact hrun.settles h
  · refine runs_client.bind_settles ?_
    simp only [isDisconnected, hp, decide_false, Bool.not_false, ↓reduceIte]
    exact (runs_throw _).bind_error.settles_error

/-- A connection can always be ended. -/
theorem runs_disconnect (hconn : c.isConnected) (now : Nat) :
    ∃ acts c', (disconnect now).Runs c (.ok ()) acts c' ∧ Disconnects c now acts c' := by
  obtain ⟨frame, hf⟩ := Packet.toBytes_disconnect c.version
  have hexpiry : c.session.dropRequests.expiry = c.session.expiry := by simp
  have hledger : c.session.dropRequests.ledger = c.session.ledger := by simp
  cases hr : c.session.expiry.retains with
  | true =>
    have hretains : c.session.dropRequests.expiry.retains = true := by rw [hexpiry, hr]
    refine ⟨_, _, ?_, .keeping hconn hf hr⟩
    refine (runs_requireConnected hconn).bind (runs_client.bind ((runs_lift_ok hf).bind ?_))
    refine (runs_send frame).bind ((runs_update _).bind (runs_session.bind ?_))
    simp only [hretains, ↓reduceIte]
    exact (runs_updateSession _).bind ((runs_emit _).bind (runs_perform _))
  | false =>
    have hretains : c.session.dropRequests.expiry.retains = false := by rw [hexpiry, hr]
    refine ⟨_, _, ?_, .forgetting hconn hf hr⟩
    refine (runs_requireConnected hconn).bind (runs_client.bind ((runs_lift_ok hf).bind ?_))
    refine (runs_send frame).bind ((runs_update _).bind (runs_session.bind ?_))
    simp only [hretains, Bool.false_eq_true, ↓reduceIte]
    refine (runs_purge.bind ((runs_emit _).bind (runs_perform _))).cast ?_ ?_
    · rw [hledger]
      rfl
    · rw [Session.purge, hledger, hexpiry]
      rfl

theorem settles_disconnect (now : Nat) :
    (disconnect now).Settles c fun _ => Disconnects c now := by
  cases hconn : c.isConnected with
  | false => exact (runs_requireConnected_error hconn).bind_error.settles_error
  | true =>
    obtain ⟨acts, c', hrun, h⟩ := runs_disconnect hconn now
    exact hrun.settles h

theorem runs_connectionLost (now : Nat) :
    ∃ acts c', (connectionLost now).Runs c (.ok ()) acts c' ∧ Loses c now acts c' := by
  unfold connectionLost
  by_cases hp : c.phase = .disconnected
  · refine ⟨_, c, runs_client.bind ?_, .before hp⟩
    simp only [isDisconnected, hp, decide_true, ↓reduceIte]
    exact runs_pure ()
  · refine ⟨_, _, runs_client.bind ?_, .now hp⟩
    simp only [isDisconnected, hp, decide_false]
    exact (runs_update _).bind (runs_emit _)

theorem settles_restore (id : UInt16) (data : Bytes) :
    (restore id data).Settles c fun _ => Restores c id data := by
  refine runs_client.bind_settles ?_
  by_cases hp : c.phase = .disconnected
  · simp only [isDisconnected, hp, decide_true, Bool.not_true, Bool.false_eq_true, ↓reduceIte]
    rcases hd : Record.decode id data with err | e
    · exact (runs_lift_error rfl).bind_error.settles_error
    refine (runs_lift_ok rfl).bind_settles (runs_session.bind_settles ?_)
    rcases hs : c.session.restore e with err | s
    · exact (runs_lift_error rfl).bind_error.settles_error
    · exact ((runs_lift_ok rfl).bind (runs_updateSession _)).settles (.record hp hd hs)
  · simp only [isDisconnected, hp, decide_false, Bool.not_false, ↓reduceIte]
    exact (runs_throw _).bind_error.settles_error

theorem runs_ping : ∃ acts c', ping.Runs c (.ok ()) acts c' ∧ Pings c acts c' := by
  unfold ping
  cases hconn : c.isConnected with
  | false =>
    refine ⟨_, c, runs_client.bind ?_, .nothing hconn⟩
    simp only [hconn, Bool.false_eq_true, ↓reduceIte]
    exact runs_pure ()
  | true =>
    obtain ⟨frame, hf⟩ := Packet.toBytes_pingReq
    refine ⟨_, c, runs_client.bind ?_, .sent hconn hf⟩
    simp only [hconn, ↓reduceIte]
    exact ((runs_lift_ok hf).bind (runs_send frame)).guarded

end Reaction

/-! ## What stays -/

section Loses

variable {c c' : Client} {now : Nat} {acts : List Action}

theorem Loses.phase (h : Loses c now acts c') : c'.phase = .disconnected := by
  cases h with
  | before hp => exact hp
  | now => rfl

theorem Loses.version (h : Loses c now acts c') : c'.version = c.version := by
  cases h <;> rfl

theorem Loses.ledger (h : Loses c now acts c') : c'.session.ledger = c.session.ledger := by
  cases h with
  | before => rfl
  | now => exact Session.ledger_dropRequests _

theorem Loses.expiry (h : Loses c now acts c') : c'.session.expiry = c.session.expiry := by
  cases h with
  | before => rfl
  | now => exact Session.expiry_dropRequests _

end Loses

end Client

end Mqtt
