import Mqtt.Link.Receive
import Mqtt.Proofs.Link.Task

/-!
# Waiting keeps the records in step

A link that waits for a packet may have to keep the connection alive or to end it; nothing of that
changes the exchanges (`keeps_packet`). What it then does about the packet keeps step, too, and so
do `connect`, `poll` and `disconnect`, unless one of the frames is refused that a connection exposes
when it is accepted or when it ends.
-/

namespace Mqtt

namespace Link

open Client (Any Lasting Uniform)

namespace Task

variable {α β : Type} {s : Sink} {P Q R : Client → Prop} {F : Bytes → Prop}

/-! ## Packets -/

theorem keeps_onDeadline (hP : Lasting P) : Keeps s F P P onDeadline := by
  refine keeps_read.bind fun l => ?_
  cases l.keepAlive with
  | none => exact keeps_pure ()
  | some k =>
    dsimp only
    cases k.poll l.now with
    | idle => exact keeps_pure ()
    | sendPing =>
      refine (keeps_react Client.takes_ping hP).bind fun _ => ?_
      exact keeps_around (fun _ => rfl) fun _ => rfl
    | timedOut => exact keeps_loseWith hP _

theorem keeps_packetUpTo (hP : Lasting P) (fuel : Nat) : Keeps s F P P (packetUpTo fuel) := by
  induction fuel with
  | zero => exact keeps_loseWith hP _
  | succ fuel ih =>
    refine keeps_read.bind fun l => ?_
    cases Stream.next l.client.version l.client.incomingLimit l.received with
    | packet p rest =>
      exact Keeps.bind (keeps_around (fun _ => rfl) fun _ => rfl) fun _ => keeps_pure p
    | refused e rest =>
      exact Keeps.bind (keeps_around (fun _ => rfl) fun _ => rfl) fun _ => keeps_loseWith hP e
    | incomplete =>
      dsimp only
      obtain ⟨wake, transport, now⟩ := l.transport.read (l.keepAlive.bind (·.deadline)) l.now
      refine Keeps.bind (keeps_around (fun _ => rfl) fun _ => rfl) fun _ => ?_
      cases wake with
      | octets b =>
        cases b with
        | nil => exact keeps_loseWith hP _
        | cons x b => exact Keeps.bind (keeps_around (fun _ => rfl) fun _ => rfl) fun _ => ih
      | failed e => exact keeps_loseWith hP e
      | deadline => exact (keeps_onDeadline hP).bind fun _ => ih

theorem keeps_packet (hP : Lasting P) : Keeps s F P P packet :=
  keeps_read.bind fun _ => keeps_packetUpTo hP _

/-! ## Connections -/

/-- A connection is made. What is sent again is exposed only if some of it was in another version
before, as `S` says. -/
theorem keeps_connect (o : ConnectOptions) {S : Prop} :
    Keeps s (Client.Resent S) (fun c => ¬Uniform o.version c.session.ledger → S) Any
      (connect o) := by
  have hlasting := Client.lasting_uniform S
  refine keeps_client.bind fun c => keeps_unless fun _ => ?_
  refine Keeps.bind (keeps_around (fun _ => rfl) fun _ => rfl) fun _ => ?_
  refine Keeps.bind (triple_note fun t ht => ht.congr rfl rfl rfl) fun _ => ?_
  refine keeps_read.bind fun l => ?_
  refine Keeps.bind (triple_lift (fun _ _ => id) fun t ht => ht.halted) fun _ => ?_
  refine keeps_read.bind fun l => ?_
  refine (keeps_react (Client.takes_connect o l.now S) hlasting).bind fun _ => ?_
  refine (keeps_packet hlasting).bind fun p => ?_
  refine (keeps_react (Q := Any) (Client.takes_receive p (fun _ _ _ _ _ => trivial)
    (fun _ _ => trivial) fun c frame hS h => ?_) Client.lasting_any).bind fun _ => ?_
  · cases h with
    | resuming hop ht hv => exact ⟨ht, hS hv⟩
  split
  · exact keeps_client.bind fun c => triple_ite (fun _ => keeps_pure _) fun _ => keeps_throw _
  · exact keeps_throw _

/-- The next event is waited for. -/
theorem keeps_pollUpTo (x : Expiry) (fuel : Nat) :
    Keeps s F (fun c => c.session.expiry = x) (fun c => c.session.expiry = x) (pollUpTo fuel) := by
  have hlasting := Client.lasting_accepted x
  induction fuel with
  | zero => exact keeps_loseWith (Client.lasting_expiry x) _
  | succ fuel ih =>
    refine keeps_read.bind fun l => ?_
    cases l.events with
    | cons e events =>
      exact Keeps.bind (keeps_around (fun _ => rfl) fun _ => rfl) fun _ => keeps_pure e
    | nil =>
      dsimp only
      refine keeps_client_bind fun c => keeps_unless fun hconn => ?_
      -- only a connection that is asked for and not yet accepted can be accepted
      refine Keeps.bind (Q := fun c => c.session.expiry = x ∧ c.phase ≠ .connecting)
        ((keeps_packet hlasting).imp (fun c' hc => ⟨hc.1, fun hp => hconn ?_⟩) fun _ => id)
        fun p => ?_
      · rw [← hc.2, Client.isConnected, hp]
        rfl
      refine keeps_when (keeps_around (fun _ => rfl) fun _ => rfl) fun _ => ?_
      refine (keeps_react (Client.takes_receive p ?_ ?_ ?_) (Client.lasting_expiry x)).bind
        fun _ => ih
      · exact fun c acts c' hc h => (h.expiry hc.2).trans hc.1
      · exact fun c hc => hc.1
      · rintro c frame hc (_ | ⟨⟨_, _, hp, _⟩, _⟩)
        exact absurd hp hc.2

theorem keeps_poll (x : Expiry) :
    Keeps s F (fun c => c.session.expiry = x) (fun c => c.session.expiry = x) poll := by
  refine Keeps.bind (Q := fun c => c.session.expiry = x) ?_ fun n => keeps_pollUpTo x _
  exact keeps_read.bind fun l => keeps_pure _

/-- A connection is ended. If the session is forgotten with it, DISCONNECT is exposed. -/
theorem keeps_disconnect (x : Expiry) :
    Keeps s (Client.Parting x) (fun c => c.session.expiry = x) Any disconnect :=
  keeps_read.bind fun l => keeps_react (Client.takes_disconnect l.now x) Client.lasting_any

/-! ## Every event -/

theorem leads_pollAllUpTo (x : Expiry) (fuel : Nat) :
    Leads (Turn.InStep s fun c => c.session.expiry = x) (pollAllUpTo fuel) (Turn.Halted s F) := by
  induction fuel with
  | zero => exact leads_pure fun _ ht => ht.halted
  | succ fuel ih =>
    refine (keeps_poll x).leads (fun event => ?_) fun e => leads_pure fun _ => id
    refine leads_get_bind fun t => ih.bind fun r => ?_
    exact leads_pure fun _ => id

theorem leads_pollAll (x : Expiry) :
    Leads (Turn.InStep s fun c => c.session.expiry = x) pollAll (Turn.Halted s F) :=
  leads_get_bind fun _ => leads_pollAllUpTo x _

/-- A handler may end the connection. If the session is forgotten with it, DISCONNECT is exposed. -/
theorem leads_runUpTo (goOn : List Client.Event → Client.Event → Bool) (x : Expiry) (fuel : Nat)
    (seen : List Client.Event) :
    Leads (Turn.InStep s fun c => c.session.expiry = x) (runUpTo goOn fuel seen)
      (Turn.Halted s (Client.Parting x)) := by
  induction fuel generalizing seen with
  | zero => exact leads_pure fun _ ht => ht.halted
  | succ fuel ih =>
    refine Triple.leads (E := Turn.Halted s (Client.Parting x)) (keeps_poll x) (fun event => ?_)
      fun e => ?_
    · refine leads_get_bind fun t => leads_ite (fun _ => ?_) fun _ => ?_
      · refine leads_ite (fun _ => ?_) fun _ => leads_pure fun _ ht => ht.halted
        exact (keeps_disconnect x).leads (fun _ => leads_pure fun _ ht => ht.halted)
          fun e => leads_pure fun _ => id
      · exact leads_ite (fun _ => leads_pure fun _ ht => ht.halted) fun _ => ih _
    · split
      · exact leads_pure fun _ => id
      · refine leads_get_bind fun t => ?_
        exact leads_modify_bind (fun _ ht => ht.congr rfl rfl rfl rfl) fun _ =>
          leads_pure fun _ => id
      · rename_i hevent
        cases hevent

theorem leads_run (goOn : List Client.Event → Client.Event → Bool) (x : Expiry) :
    Leads (Turn.InStep s fun c => c.session.expiry = x) (run goOn)
      (Turn.Halted s (Client.Parting x)) :=
  leads_get_bind fun _ => leads_runUpTo goOn x _ []

end Task

end Link

end Mqtt
