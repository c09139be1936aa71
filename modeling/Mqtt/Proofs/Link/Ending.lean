import Mathlib
import Mqtt.Proofs.Link.Account

/-!
# The end of a connection

However a connection ends, the application is told of it once: of the events that a link reports
behind an accepted CONNACK, Close is the last one, and it is reported as soon as the connection is
gone. There is one exception (`close_ends_connection`). The client reports Close behind its own
DISCONNECT, and drops it if DISCONNECT cannot be written: `close_lost_with_disconnect`.

`Told` is the account of a connection from CONNECT on, and `Standing` that of the events behind
CONNACK. A connection that is up has been reported by CONNACK: `connAck_reported`, from `Begun`.
-/

namespace Mqtt

namespace Link

open Client (Loses Steps Disconnects Plain Silent Discreet Leaving Opens eventsOf)

/-- How an accepted connection stands, from what was reported since. If `R` holds, it may have ended
without Close. -/
inductive Standing (R : Prop) (acts : List Client.Action) (c : Client) : List Client.Event → Prop
  | up {since : List Client.Event} (hconn : c.isConnected) (hnone : .close ∉ since)
      (hacts : Discreet acts) : Standing R acts c since
  /-- The client has ended it, and is about to report that. -/
  | leaving {since : List Client.Event} (hp : c.phase = .disconnected) (hnone : .close ∉ since)
      (hacts : Leaving acts) : Standing R acts c since
  | closed {since : List Client.Event} (hp : c.phase = .disconnected) (hnone : .close ∉ since)
      (hacts : Silent acts) : Standing R acts c (since ++ [.close])
  | silenced {since : List Client.Event} (hR : R) (hp : c.phase = .disconnected)
      (hnone : .close ∉ since) (hacts : Silent acts) : Standing R acts c since

/-- What was reported since CONNECT, after `told`. If that began with `v`, the report of CONNACK,
the connection stands accordingly. While `pending` holds it need not have begun so. -/
inductive Told (told : List Client.Event) (v : Client.Event) (pending R : Prop)
    (acts : List Client.Action) (c : Client) : List Client.Event → Prop
  | nothing (hpending : pending) (hacts : Opens v c acts) : Told told v pending R acts c told
  | other {v' : Client.Event} {since : List Client.Event} (hpending : pending) (hne : v' ≠ v) :
      Told told v pending R acts c (told ++ v' :: since)
  | accepted {since : List Client.Event} (h : Standing R acts c since) :
      Told told v pending R acts c (told ++ v :: since)

/-- How a connection begins, from what was reported since it was asked for: with CONNACK. -/
structure Begun (acts : List Client.Action) (c : Client) (since : List Client.Event) : Prop where
  /-- Until then nothing is reported, but what is about to end the attempt. -/
  asked : c.phase = .connecting → since = [] ∧ Silent acts ∨ .close ∈ acts
  accepted : c.isConnected → ∃ sp r rest, r.isError = false ∧
    since ++ eventsOf acts = .connAck sp r :: rest

variable {pending R R' : Prop} {a : Client.Action} {acts acts' : List Client.Action} {c c' : Client}
  {es since told : List Client.Event} {v v' : Client.Event} {now : Nat} {frame : Bytes}

namespace Standing

theorem mono (hR : R → R') (h : Standing R acts c since) : Standing R' acts c since := by
  cases h with
  | up hconn hnone hacts => exact .up hconn hnone hacts
  | leaving hp hnone hacts => exact .leaving hp hnone hacts
  | closed hp hnone hacts => exact .closed hp hnone hacts
  | silenced hr hp hnone hacts => exact .silenced (hR hr) hp hnone hacts

/-- A connection that is up is lost. -/
theorem of_loses (hconn : c.isConnected) (hnone : .close ∉ since) (hl : Loses c now acts c')
    (hacts : Silent acts') : Standing R acts' c' (since ++ eventsOf acts) := by
  cases hl with
  | before hp => simp [Client.isConnected, hp] at hconn
  | now hp => exact .closed rfl hnone hacts

/-- Without a connection none is lost. -/
theorem after_loses (h : Standing R acts c since) (hp : c.phase = .disconnected)
    (hl : Loses c now acts' c') : Standing R acts c' (since ++ eventsOf acts') := by
  cases hl with
  | before =>
    rw [Client.eventsOf_nil, List.append_nil]
    exact h
  | now hp' => exact absurd hp hp'

theorem pass (ha : Plain [a]) (h : Standing R (a :: acts) c since) : Standing R acts c since := by
  cases h with
  | up hconn hnone hacts => exact .up hconn hnone ((Client.discreet_append ha).1 hacts)
  | leaving hp hnone hacts =>
    refine .leaving hp hnone ?_
    cases a with
    | send => exact hacts.2
    | persist => exact hacts
    | emit => simp [Plain] at ha
    | keepAlive | close => cases hacts
  | closed hp hnone hacts => exact .closed hp hnone (Client.silent_cons.1 hacts).2
  | silenced hR hp hnone hacts => exact .silenced hR hp hnone (Client.silent_cons.1 hacts).2

theorem emit (h : Standing R (.emit v :: acts) c since) : Standing R acts c (since ++ [v]) := by
  cases h with
  | up hconn hnone hacts => exact .up hconn (by simp [hnone, hacts.1.symm]) hacts.2
  | leaving hp hnone hacts =>
    obtain ⟨rfl, hacts⟩ := hacts
    exact .closed hp hnone hacts
  | closed hp hnone hacts | silenced hR hp hnone hacts => simp at hacts

theorem close (h : Standing R (.close :: acts) c since) (hl : Loses c now acts' c') :
    Standing R acts c' (since ++ eventsOf acts') := by
  cases h with
  | up hconn hnone hacts => exact of_loses hconn hnone hl hacts
  | leaving hp hnone hacts => cases hacts
  | closed hp hnone hacts =>
    exact (closed hp hnone (Client.silent_cons.1 hacts).2).after_loses hp hl
  | silenced hR hp hnone hacts =>
    exact (silenced hR hp hnone (Client.silent_cons.1 hacts).2).after_loses hp hl

/-- When a frame is refused the connection is lost. If the frame is DISCONNECT, it has ended
before, and Close is not reported any more. -/
theorem refused (h : Standing R (.send frame :: acts) c since) (hl : Loses c now acts' c') :
    Standing (R ∨ PacketType.disconnect.Heads frame) [] c' (since ++ eventsOf acts') := by
  cases h with
  | up hconn hnone hacts => exact of_loses hconn hnone hl (by simp)
  | leaving hp hnone hacts => exact (silenced (.inr hacts.1) hp hnone (by simp)).after_loses hp hl
  | closed hp hnone hacts => exact (closed hp hnone (by simp)).after_loses hp hl
  | silenced hR hp hnone hacts =>
    exact (silenced (.inl hR) hp hnone (by simp)).after_loses hp hl

/-- With nothing left to do, the connection is up, or Close was the last event. -/
theorem cases_nil (h : Standing R [] c since) :
    c.isConnected ∧ .close ∉ since ∨
      c.phase = .disconnected ∧
        ((∃ es, since = es ++ [.close] ∧ .close ∉ es) ∨ R ∧ .close ∉ since) := by
  cases h with
  | up hconn hnone hacts => exact .inl ⟨hconn, hnone⟩
  | leaving hp hnone hacts => cases hacts
  | closed hp hnone hacts => exact .inr ⟨hp, .inl ⟨_, rfl, hnone⟩⟩
  | silenced hR hp hnone hacts => exact .inr ⟨hp, .inr ⟨hR, hnone⟩⟩

theorem close_not_mem (h : Standing R [] c since) (hconn : c.isConnected) : .close ∉ since := by
  rcases h.cases_nil with h | h
  · exact h.2
  · simp [Client.not_isConnected h.1] at hconn

theorem lost (h : Standing R [] c since) (hl : Loses c now acts' c') :
    Standing R [] c' (since ++ eventsOf acts') := by
  rcases h.cases_nil with hup | hgone
  · exact of_loses hup.1 hup.2 hl (by simp)
  · exact h.after_loses hgone.1 hl

theorem minor {op : Client.Op} {i : Option UInt16} (h : Standing R [] c since) (hop : op.Minor)
    (hs : Steps c op i acts c') : Standing R acts c' since := by
  obtain ⟨hplain, hphase⟩ := hs.plain hop
  cases h with
  | up hconn hnone =>
    exact .up ((Client.isConnected_congr hphase).trans hconn) hnone hplain.discreet
  | leaving _ _ hacts => cases hacts
  | closed hp hnone => exact .closed (hphase.trans hp) hnone hplain.1
  | silenced hR hp hnone => exact .silenced hR (hphase.trans hp) hnone hplain.1

theorem receive {p : Packet} {i : Option UInt16} (h : Standing R [] c since)
    (hp : c.phase ≠ .disconnected) (hs : Steps c (.receive p) i acts c') :
    Standing R acts c' since := by
  rcases h.cases_nil with ⟨hconn, hnone⟩ | hgone
  · obtain ⟨hacts, hphase⟩ := hs.discreet hconn
    exact .up ((Client.isConnected_congr hphase).trans hconn) hnone hacts
  · exact absurd hgone.1 hp

theorem disconnect (h : Standing R [] c since) (hs : Disconnects c now acts c') :
    Standing R acts c' since :=
  .leaving hs.leaving.2 (h.close_not_mem hs.isConnected) hs.leaving.1

end Standing

/-! ## Until it is up -/

namespace Begun

theorem of_disconnected (hp : c.phase = .disconnected) : Begun acts c since where
  asked hp' := by simp [hp] at hp'
  accepted hconn := by simp [Client.not_isConnected hp] at hconn

theorem of_connecting (hacts : Plain acts) (hp : c.phase = .connecting) : Begun acts c [] where
  asked _ := .inl ⟨rfl, hacts.1⟩
  accepted hconn := by simp [Client.isConnected, hp] at hconn

theorem of_loses (hl : Loses c now acts' c') : Begun acts c' since := by
  cases hl with
  | before hp => exact of_disconnected hp
  | now => exact of_disconnected rfl

theorem pass (ha : Plain [a]) (h : Begun (a :: acts) c since) : Begun acts c since where
  asked hp := by
    rcases h.asked hp with ⟨hnone, hacts⟩ | hmem
    · exact .inl ⟨hnone, (Client.silent_cons.1 hacts).2⟩
    · rcases List.mem_cons.1 hmem with rfl | hmem
      · simp [Plain] at ha
      · exact .inr hmem
  accepted hconn := by
    have := h.accepted hconn
    rwa [← List.singleton_append, Client.eventsOf_append, Client.eventsOf_silent ha.1] at this

theorem emit (h : Begun (.emit v :: acts) c since) : Begun acts c (since ++ [v]) where
  asked hp := by
    rcases h.asked hp with ⟨-, hacts⟩ | hmem
    · simp at hacts
    · exact .inr (by simpa using hmem)
  accepted hconn := by
    rw [List.append_assoc]
    exact h.accepted hconn

theorem tell (e : Error) (h : Begun [] c since) (hconn : c.isConnected) :
    Begun [] c (since ++ [.error e]) where
  asked hp := by simp [Client.isConnected, hp] at hconn
  accepted hconn := by
    obtain ⟨sp, r, rest, hr, hrest⟩ := h.accepted hconn
    rw [Client.eventsOf_nil, List.append_nil] at hrest
    exact ⟨sp, r, rest ++ [.error e], hr, by simp [hrest]⟩

theorem minor {op : Client.Op} {i : Option UInt16} (h : Begun [] c since) (hop : op.Minor)
    (hs : Steps c op i acts c') : Begun acts c' since := by
  obtain ⟨hplain, hphase⟩ := hs.plain hop
  constructor
  · intro hp
    obtain ⟨hnone, -⟩ | hmem := h.asked (hphase.symm.trans hp)
    · exact .inl ⟨hnone, hplain.1⟩
    · cases hmem
  · intro hconn
    rw [Client.eventsOf_silent hplain.1]
    exact h.accepted ((Client.isConnected_congr hphase).symm.trans hconn)

theorem receive {p : Packet} {i : Option UInt16} (h : Begun [] c since)
    (hp : c.phase ≠ .disconnected) (hs : Steps c (.receive p) i acts c') :
    Begun acts c' since := by
  cases hphase : c.phase with
  | disconnected => exact absurd hphase hp
  | connecting =>
    obtain ⟨hasked, haccepted⟩ := hs.begins hphase
    obtain ⟨rfl, -⟩ | hmem := h.asked hphase
    · exact ⟨fun hp => .inr (hasked hp), fun hconn => haccepted hconn⟩
    · cases hmem
  | connected =>
    have hconn : c.isConnected := by rw [Client.isConnected, hphase]
    obtain ⟨sp, r, rest, hr, hrest⟩ := h.accepted hconn
    obtain ⟨-, hphase'⟩ := hs.discreet hconn
    rw [Client.eventsOf_nil, List.append_nil] at hrest
    refine ⟨fun hp => ?_, fun _ => ⟨sp, r, rest ++ eventsOf acts, hr, by rw [hrest]; rfl⟩⟩
    simp [hphase', hphase] at hp

end Begun

/-- What is reported of a connection until it is up, after `told`. -/
theorem kept_begun (told : List Client.Event) : Account.Kept fun _ got acts c es =>
    ∃ since, got ++ es = told ++ since ∧ Begun acts c since where
  mono _ := id
  pass ha := fun ⟨since, hes, h⟩ => ⟨since, hes, h.pass ha⟩
  emit := fun ⟨since, hes, h⟩ => ⟨since ++ [_], by
    rw [← List.append_assoc, hes, List.append_assoc], h.emit⟩
  close := fun ⟨since, hes, _⟩ hl => ⟨since ++ eventsOf _, by
    rw [← List.append_assoc, hes, List.append_assoc], .of_loses hl⟩
  refused := fun ⟨since, hes, _⟩ hl => ⟨since ++ eventsOf _, by
    rw [← List.append_assoc, hes, List.append_assoc], .of_loses hl⟩
  lost := fun ⟨since, hes, _⟩ hl => ⟨since ++ eventsOf _, by
    rw [← List.append_assoc, hes, List.append_assoc], .of_loses hl⟩
  minor := fun ⟨since, hes, h⟩ hop hs => ⟨since, hes, h.minor hop hs⟩
  receive := fun ⟨since, hes, h⟩ hp hs => ⟨since, hes, h.receive hp hs⟩
  disconnect := fun ⟨since, hes, _⟩ hs => ⟨since, hes, .of_disconnected hs.leaving.2⟩
  take := fun ⟨since, hes, h⟩ => ⟨since, by rwa [List.append_assoc], h⟩
  tell e := fun ⟨since, hes, h⟩ hconn => ⟨since ++ [.error e], by
    rw [List.append_nil] at hes ⊢
    rw [hes, List.append_assoc], h.tell e hconn⟩

/-! ## From CONNECT on -/

namespace Told

/-- More is reported, and the first event stays what it is. -/
theorem extend {news : List Client.Event} (h : Told told v pending R acts c es)
    (hnothing : pending → Opens v c acts → Told told v pending R' acts' c' (told ++ news))
    (hstanding : ∀ {since}, Standing R acts c since → Standing R' acts' c' (since ++ news)) :
    Told told v pending R' acts' c' (es ++ news) := by
  cases h with
  | nothing hpending hacts => exact hnothing hpending hacts
  | other hpending hne =>
    rw [List.append_assoc, List.cons_append]
    exact .other hpending hne
  | accepted h =>
    rw [List.append_assoc, List.cons_append]
    exact .accepted (hstanding h)

/-- Nothing more is reported. -/
theorem remain (h : Told told v pending R acts c es) (hnothing : Opens v c acts → Opens v c' acts')
    (hstanding : ∀ {since}, Standing R acts c since → Standing R' acts' c' since) :
    Told told v pending R' acts' c' es := by
  cases h with
  | nothing hpending hacts => exact .nothing hpending (hnothing hacts)
  | other hpending hne => exact .other hpending hne
  | accepted h => exact .accepted (hstanding h)

/-- A connection that is lost before it is accepted is reported to be closed. -/
theorem of_loses (hpending : pending) (hv : .close ≠ v) (hl : Loses c now acts c') :
    Told told v pending R [] c' (told ++ eventsOf acts) := by
  cases hl with
  | before hp =>
    rw [Client.eventsOf_nil, List.append_nil]
    exact .nothing hpending (Client.not_isConnected hp)
  | now => exact .other hpending hv

theorem emit (h : Told told v pending R (.emit v' :: acts) c es) :
    Told told v pending R acts c (es ++ [v']) := by
  refine h.extend (fun hpending hacts => ?_) Standing.emit
  by_cases hv : v' = v
  · obtain ⟨hconn, hdiscreet⟩ := hacts hv
    subst hv
    exact .accepted (.up hconn (by simp) hdiscreet)
  · exact .other hpending hv

/-- The application is told of an error while there is a connection. -/
theorem tell (e : Error) (h : Told told v pending R [] c es) (hconn : c.isConnected) :
    Told told v pending R [] c (es ++ [.error e]) := by
  refine h.extend (fun _ hacts => ?_) fun hs => ?_
  · rw [Opens, hconn] at hacts
    cases hacts
  · exact .up hconn (by simp [hs.close_not_mem hconn]) trivial

theorem minor {op : Client.Op} {i : Option UInt16} (h : Told told v pending R [] c es)
    (hop : op.Minor) (hs : Steps c op i acts c') : Told told v pending R acts c' es := by
  obtain ⟨hplain, hphase⟩ := hs.plain hop
  exact h.remain (fun hconn => hplain.opens ((Client.isConnected_congr hphase).trans hconn))
    fun h => h.minor hop hs

theorem disconnect (h : Told told v pending R [] c es) (hs : Disconnects c now acts c') :
    Told told v pending R acts c' es := by
  refine h.remain (fun hconn => ?_) fun h => h.disconnect hs
  rw [Opens, hs.isConnected] at hconn
  cases hconn

/-- If CONNACK was reported first, that is how the connection stands. -/
theorem standing (h : Told told v pending R acts c (told ++ v :: since)) :
    Standing R acts c since := by
  generalize hall : told ++ v :: since = all at h
  cases h with
  | nothing => simp at hall
  | other _ hne =>
    obtain ⟨rfl, -⟩ := List.cons.inj (List.append_cancel_left hall)
    exact absurd rfl hne
  | accepted h =>
    obtain ⟨-, rfl⟩ := List.cons.inj (List.append_cancel_left hall)
    exact h

end Told

/-- What the application is told of a connection, from CONNECT on. -/
theorem kept_told (told : List Client.Event) (sp : Bool) {r : Reason} (hr : r.isError = false)
    (pending : Prop) : Account.Kept fun R got acts c es =>
      Told told (.connAck sp r) pending R acts c (got ++ es) where
  mono hR h := h.remain id (Standing.mono hR)
  pass ha h := h.remain (Client.opens_append ha).1 (Standing.pass ha)
  emit h := by
    rw [← List.append_assoc]
    exact h.emit
  close h hl := by
    rw [← List.append_assoc]
    exact h.extend (fun _ => False.elim) fun hs => hs.close hl
  refused h hl := by
    rw [← List.append_assoc]
    exact h.extend (fun hp _ => .of_loses hp (by simp) hl) fun hs => hs.refused hl
  lost h hl := by
    rw [← List.append_assoc]
    exact h.extend (fun hp _ => .of_loses hp (by simp) hl) fun hs => hs.lost hl
  minor h hop hs := h.minor hop hs
  receive h hp hs := h.remain (fun hconn => hs.opens hconn hr) fun h => h.receive hp hs
  disconnect h hs := h.disconnect hs
  take h := by
    rw [List.append_assoc]
    exact h
  tell e h hconn := by
    rw [List.append_nil] at h ⊢
    exact h.tell e hconn

/-! ## Connections -/

variable {l : Link} {o : ConnectOptions} {sp : Bool} {r : Reason} {rest : List Client.Event}

/-- A connection that is up once `connect` is through has been reported, and nothing before it. -/
theorem connAck_reported (hl : l.client.WF) (hp : l.client.phase = .disconnected)
    (hconn : (l.step (.connect o)).link.client.isConnected) :
    ∃ sp r rest, r.isError = false ∧
      (l.step (.connect o)).link.events = l.events ++ .connAck sp r :: rest := by
  obtain ⟨since, hes, hbegun⟩ := (kept_begun l.events).step_connect (o := o) hl hp
    (fun hp => ⟨[], (List.append_nil _).symm, .of_disconnected hp⟩)
    fun hacts hp => ⟨[], (List.append_nil _).symm, .of_connecting hacts hp⟩
  obtain ⟨sp, r, rest, hr, hrest⟩ := hbegun.accepted hconn
  rw [Client.eventsOf_nil, List.append_nil] at hrest
  rw [List.nil_append, hrest] at hes
  exact ⟨sp, r, rest, hr, hes⟩

/-- CONNACK is accepted in a call of `connect`. -/
theorem standing_connect (hl : l.client.WF)
    (haccepted : (l.step (.connect o)).link.events = l.events ++ .connAck sp r :: rest)
    (hr : r.isError = false) :
    Standing (DisconnectRefused (l.step (.connect o)).traffic) [] (l.step (.connect o)).link.client
      rest := by
  have hp : l.client.phase = .disconnected := by
    by_contra hp
    rw [step_connect_refused hp] at haccepted
    simp at haccepted
  have htold := (kept_told l.events sp hr True).step_connect (o := o) hl hp
    (fun hp => .nothing trivial (Client.not_isConnected hp)) fun {acts c} hacts hp =>
      .nothing trivial (hacts.opens (by rw [Client.isConnected, hp]))
  rw [List.nil_append, haccepted] at htold
  exact htold.standing

/-- However a connection ends that a new client has made, over any transport, Close is reported
once, and nothing is reported behind it. This is of what the application gets and of what still
waits for it, up to the next connection. Only if DISCONNECT is refused, Close may be missing. -/
theorem close_ends_connection (options : ClientOptions) (transport : Transport) (persists : Bool)
    {before during : List Op}
    (hl : l = after { client := .new options, transport, persists } before)
    (haccepted : (l.step (.connect o)).link.events = l.events ++ .connAck sp r :: rest)
    (hr : r.isError = false) (hduring : (l.step (.connect o)).link.OpensNone during) :
    ∃ since, l.given (.connect o :: during) ++ (l.after (.connect o :: during)).events =
        l.events ++ .connAck sp r :: since ∧
      ((l.after (.connect o :: during)).client.isConnected ∧ .close ∉ since ∨
        (l.after (.connect o :: during)).client.phase = .disconnected ∧
          ((∃ es, since = es ++ [.close] ∧ .close ∉ es) ∨
            DisconnectRefused (l.trafficOf (.connect o :: during)) ∧ .close ∉ since)) := by
  have hwf : l.client.WF := hl ▸ wf_after (Client.wf_new options) before
  have hstart : Told l.events (.connAck sp r) False
      (DisconnectRefused (l.step (.connect o)).traffic) [] (l.step (.connect o)).link.client
      ([] ++ (l.step (.connect o)).link.events) := by
    rw [List.nil_append, haccepted]
    exact .accepted (standing_connect hwf haccepted hr)
  obtain ⟨-, htold⟩ := (kept_told l.events sp hr False).steady.after hduring ⟨wf_step hwf _, hstart⟩
  rw [given, given_connect, List.nil_append, trafficOf, disconnectRefused_append]
  rw [List.nil_append] at htold
  generalize hall : (l.step (.connect o)).link.given during ++
    ((l.step (.connect o)).link.after during).events = all at htold
  cases htold with
  | nothing hpending | other hpending => exact hpending.elim
  | accepted h => exact ⟨_, hall, h.cases_nil⟩

/-- A transport that accepts a connection, takes CONNECT and no other frame, and then ends. -/
def oneWrite : Transport :=
  { script := [.data [0x20, 3, 0, 0, 0], .endOfStream], writesLeft := some 1 }

/-- The stream ends while the application waits for events. -/
theorem close_ends_connection_at_end_of_stream :
    let l : Link := { client := .new {}, transport := oneWrite }
    let ops : List Op := [.connect { clientId := "c" }, .pollAll]
    l.given ops ++ (l.after ops).events = [.connAck false .success, .close] ∧
      ∃ since, l.given ops ++ (l.after ops).events =
          l.events ++ .connAck false .success :: since ∧
        ((l.after ops).client.isConnected ∧ .close ∉ since ∨
          (l.after ops).client.phase = .disconnected ∧
            ((∃ es, since = es ++ [.close] ∧ .close ∉ es) ∨
              DisconnectRefused (l.trafficOf ops) ∧ .close ∉ since)) := by
  intro l ops
  have haccepted : (l.step (.connect { clientId := "c" })).link.events =
      l.events ++ [.connAck false .success] := by cbv
  have hnone : (l.step (.connect { clientId := "c" })).link.OpensNone [.pollAll] :=
    ⟨by simp, trivial⟩
  have hl : l = after { client := .new {}, transport := oneWrite } [] := rfl
  have hr : Reason.success.isError = false := rfl
  have hops : ops = [.connect { clientId := "c" }, .pollAll] := rfl
  refine ⟨by cbv, ?_⟩
  rw [hops]
  exact close_ends_connection {} oneWrite true hl haccepted hr hnone

/-- DISCONNECT cannot be written. The connection has ended, and nobody is told. -/
theorem close_lost_with_disconnect :
    let l : Link := { client := .new {}, transport := oneWrite }
    let ops : List Op := [.connect { clientId := "c" }, .disconnect, .pollAll]
    (l.step (.connect { clientId := "c" })).link.events = [.connAck false .success] ∧
      (l.after ops).client.phase = .disconnected ∧
      l.given ops ++ (l.after ops).events = [.connAck false .success] ∧
      ¬∃ es, l.given ops ++ (l.after ops).events =
        [.connAck false .success] ++ es ++ [.close] := by
  intro l ops
  have hevents : l.given ops ++ (l.after ops).events = [.connAck false .success] := by cbv
  refine ⟨by cbv, by cbv, hevents, ?_⟩
  rintro ⟨es, hes⟩
  simp [hevents] at hes

end Link

end Mqtt
