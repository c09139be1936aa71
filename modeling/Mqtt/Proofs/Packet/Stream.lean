import Mqtt.Packet.Stream
import Mqtt.Proofs.Success
import Mqtt.Proofs.Wire.Scan

/-!
# Streams in portions

What stands at the front of a stream does not change when more arrives behind it, once it is a packet
or refused: `Stream.next_append`. So it makes no difference in which portions the octets arrive
(`Stream.collect_feed`), and the packets are those of consecutive frames (`Stream.tiled_drain`).
`Stream.portions_alike` puts this together.
-/

namespace Mqtt

/-! ## Headers -/

namespace Header

variable {h : Header} {n : Nat} {b : Bytes}

/-- A header is an octet with a type and flags, and a number behind it. -/
theorem peek?_eq_some_iff : peek? b = .ok (some (h, n)) ↔
    ∃ first rest k, b = first :: rest ∧ packetType first = .ok h.packet ∧ first % 16 = h.flags ∧
      VarInt.peek? rest = .ok (some (h.length, k)) ∧ n = 1 + k := by
  cases b with
  | nil => simp [peek?]
  | cons first rest =>
    simp only [peek?, Except.bind_eq_ok_iff, Except.pure_eq_ok_iff, Option.map_eq_some_iff]
    constructor
    · rintro ⟨t, ht, r, hr, ⟨l, k⟩, rfl, heq⟩
      cases heq
      exact ⟨first, rest, k, rfl, ht, rfl, hr, rfl⟩
    · rintro ⟨_, _, k, heq, ht, hflags, hr, rfl⟩
      cases heq
      exact ⟨h.packet, ht, _, hr, (h.length, k), rfl, by rw [hflags]⟩

theorem bounds_of_peek? (hp : peek? b = .ok (some (h, n))) : 0 < n ∧ n ≤ b.length := by
  obtain ⟨first, rest, k, rfl, -, -, hk, rfl⟩ := peek?_eq_some_iff.1 hp
  have hbounds := VarInt.scan_bounds (VarInt.peek?_eq_some_iff.1 hk)
  rw [List.length_cons]
  omega

/-- A header depends on its own octets only. -/
theorem peek?_take_append (hp : peek? b = .ok (some (h, n))) (c : Bytes) :
    peek? (b.take n ++ c) = .ok (some (h, n)) := by
  obtain ⟨first, rest, k, rfl, ht, hflags, hk, rfl⟩ := peek?_eq_some_iff.1 hp
  rw [Nat.add_comm 1 k, List.take_succ_cons, List.cons_append]
  exact peek?_eq_some_iff.2
    ⟨first, _, k, rfl, ht, hflags, VarInt.peek?_take_append hk c, Nat.add_comm k 1⟩

theorem peek?_append (hb : peek? b ≠ .ok none) (c : Bytes) : peek? (b ++ c) = peek? b := by
  cases b with
  | nil => exact absurd rfl hb
  | cons first rest =>
    rw [List.cons_append]
    simp only [peek?] at hb ⊢
    cases ht : packetType first with
    | error e => rfl
    | ok t =>
      rw [ht] at hb
      have hrest : VarInt.peek? rest ≠ .ok none := fun hnone => hb (by rw [hnone]; rfl)
      rw [VarInt.peek?_append hrest c]

end Header

/-! ## One packet -/

namespace Stream

variable {v : Version} {limit : Option Nat} {b c : Bytes}

/-- The same, with more octets behind it. -/
def Next.before (c : Bytes) : Next → Next
  | .incomplete => .incomplete
  | .packet p rest => .packet p (rest ++ c)
  | .refused e rest => .refused e (rest ++ c)

/-- What follows a header that is complete. -/
theorem next_of_peek? {h : Header} {n : Nat} (hp : Header.peek? b = .ok (some (h, n))) :
    next v limit b = match within limit (n + h.length) with
      | .error e => .refused e b
      | .ok () =>
        if b.length < n + h.length then .incomplete
        else match (Packet.decodeBody h v).runOn ((b.take (n + h.length)).drop n) with
          | .error e => .refused e (b.drop (n + h.length))
          | .ok p => .packet p (b.drop (n + h.length)) := by
  have hlen : (b.take (n + h.length)).length < n + h.length ↔ b.length < n + h.length := by
    rw [List.length_take]
    omega
  rw [next, hp]
  cases hw : within limit (n + h.length) with
  | error e => simp only [hw]
  | ok u =>
    simp only [hw]
    exact if_congr hlen rfl rfl

/-- Once the front of the stream is a packet or refused, it stays so. -/
theorem next_append (hb : next v limit b ≠ .incomplete) (c : Bytes) :
    next v limit (b ++ c) = (next v limit b).before c := by
  cases hp : Header.peek? b with
  | error e =>
    have hp' : Header.peek? (b ++ c) = .error e := by
      rw [Header.peek?_append (by rw [hp]; nofun), hp]
    simp only [next, hp, hp', Next.before]
  | ok r =>
    rcases r with _ | ⟨h, n⟩
    · exact absurd (by simp only [next, hp]) hb
    have hp' : Header.peek? (b ++ c) = .ok (some (h, n)) := by
      rw [Header.peek?_append (by rw [hp]; nofun), hp]
    rw [next_of_peek? hp] at hb ⊢
    rw [next_of_peek? hp']
    cases hw : within limit (n + h.length) with
    | error e => rfl
    | ok u =>
      rw [hw] at hb
      dsimp only at hb ⊢
      by_cases hshort : b.length < n + h.length
      · exact absurd (if_pos hshort) hb
      · have hle : n + h.length ≤ b.length := Nat.le_of_not_lt hshort
        have hlong : ¬(b ++ c).length < n + h.length := by
          rw [List.length_append]
          omega
        rw [if_neg hshort, if_neg hlong, List.take_append_of_le_length hle,
          List.drop_append_of_le_length hle]
        split <;> rfl

/-- The octets of one packet: a header, as many octets as it says, within the limit, and together
they are the packet. -/
structure Framed (v : Version) (limit : Option Nat) (f : Bytes) (p : Packet) : Prop where
  header : ∃ h n, Header.peek? f = .ok (some (h, n)) ∧ f.length = n + h.length
  within : ∀ max, limit = some max → f.length ≤ max
  decoded : Packet.decodeFrame f v = .ok p

theorem within_eq_ok_iff {size : Nat} :
    Stream.within limit size = .ok () ↔ ∀ max, limit = some max → size ≤ max := by
  cases limit with
  | none => simp [Stream.within]
  | some max =>
    by_cases hlt : max < size
    · simp [Stream.within, hlt]
    · simp [Stream.within, hlt, Nat.le_of_not_lt hlt]

/-- Behind a complete header, decoding a frame is decoding its body. -/
theorem decodeFrame_of_peek? {h : Header} {n : Nat} {f : Bytes}
    (hp : Header.peek? f = .ok (some (h, n))) (hlen : f.length = n + h.length) :
    Packet.decodeFrame f v = (Packet.decodeBody h v).runOn (f.drop n) := by
  have hbody : (f.drop n).length = h.length := by
    rw [List.length_drop]
    omega
  rw [Packet.decodeFrame, hp]
  exact if_pos hbody

/-- A packet comes off the front exactly if the stream begins with a frame that holds it. -/
theorem next_eq_packet_iff {p : Packet} {rest : Bytes} :
    next v limit b = .packet p rest ↔ ∃ f, b = f ++ rest ∧ Framed v limit f p := by
  constructor
  · intro hnext
    rcases hp : Header.peek? b with e | _ | ⟨h, n⟩
    · simp [next, hp] at hnext
    · simp [next, hp] at hnext
    rw [next_of_peek? hp] at hnext
    split at hnext
    · cases hnext
    rename_i hwithin
    split at hnext
    · cases hnext
    rename_i hshort
    split at hnext
    · cases hnext
    rename_i q hbody
    cases hnext
    have hlen : (b.take (n + h.length)).length = n + h.length := by
      rw [List.length_take]
      omega
    have hpeek : Header.peek? (b.take (n + h.length)) = .ok (some (h, n)) := by
      have hsplit : b.take (n + h.length) = b.take n ++ (b.drop n).take h.length := by
        rw [List.take_add]
      rw [hsplit]
      exact Header.peek?_take_append hp _
    refine ⟨b.take (n + h.length), (List.take_append_drop _ b).symm, ⟨h, n, hpeek, hlen⟩, ?_, ?_⟩
    · rw [hlen]
      exact within_eq_ok_iff.1 hwithin
    · rw [decodeFrame_of_peek? hpeek hlen]
      exact hbody
  · rintro ⟨f, rfl, ⟨h, n, hp, hlen⟩, hwithin, hdecoded⟩
    have hp' : Header.peek? (f ++ rest) = .ok (some (h, n)) := by
      rw [Header.peek?_append (by rw [hp]; nofun), hp]
    have hlong : ¬(f ++ rest).length < f.length := by
      rw [List.length_append]
      omega
    rw [hlen] at hwithin
    rw [decodeFrame_of_peek? hp hlen] at hdecoded
    rw [next_of_peek? hp', within_eq_ok_iff.2 hwithin, ← hlen]
    dsimp only
    rw [if_neg hlong, List.take_left, List.drop_left, hdecoded]

/-- A frame takes an octet at least. -/
theorem Framed.length_pos {f : Bytes} {p : Packet} (h : Framed v limit f p) : 0 < f.length := by
  obtain ⟨hd, n, hp, hlen⟩ := h.header
  have hbounds := Header.bounds_of_peek? hp
  omega

/-- A frame over the limit is refused as soon as its header is complete. -/
theorem next_of_over {h : Header} {n max : Nat} (hp : Header.peek? b = .ok (some (h, n)))
    (hover : max < n + h.length) :
    next v (some max) b = .refused (.packetTooLarge (n + h.length) max) b := by
  rw [next_of_peek? hp, within, if_pos hover]

/-! ## Many packets -/

theorem length_rest_lt {p : Packet} {rest : Bytes} (h : next v limit b = .packet p rest) :
    rest.length < b.length := by
  obtain ⟨f, rfl, hf⟩ := next_eq_packet_iff.1 h
  have hpos := hf.length_pos
  rw [List.length_append]
  omega

/-- There are no more packets than octets, so more steps than octets change nothing. -/
theorem drainUpTo_of_lt {fuel fuel' : Nat} (h : b.length < fuel) (h' : b.length < fuel') :
    drainUpTo v limit fuel b = drainUpTo v limit fuel' b := by
  induction fuel generalizing b fuel' with
  | zero => omega
  | succ fuel ih =>
    cases fuel' with
    | zero => omega
    | succ fuel' =>
      rw [drainUpTo, drainUpTo]
      cases hnext : next v limit b with
      | incomplete => rfl
      | refused e rest => rfl
      | packet p rest =>
        have hlt := length_rest_lt hnext
        have hrest : drainUpTo v limit fuel rest = drainUpTo v limit fuel' rest :=
          ih (by omega) (by omega)
        dsimp only
        rw [hrest]

theorem drain_of_packet {p : Packet} {rest : Bytes} (h : next v limit b = .packet p rest) :
    drain v limit b = { drain v limit rest with packets := p :: (drain v limit rest).packets } := by
  have hlt := length_rest_lt h
  rw [drain, drainUpTo, h]
  dsimp only
  rw [drainUpTo_of_lt hlt (Nat.lt_succ_self rest.length), ← drain]

theorem drain_of_refused {e : Error} {rest : Bytes} (h : next v limit b = .refused e rest) :
    drain v limit b = ⟨[], some e, rest⟩ := by
  rw [drain, drainUpTo, h]

theorem drain_of_incomplete (h : next v limit b = .incomplete) :
    drain v limit b = ⟨[], none, b⟩ := by
  rw [drain, drainUpTo, h]

/-- The packets at the front of a stream, frame by frame, and what stands behind them. -/
inductive Tiled (v : Version) (limit : Option Nat) : Bytes → Drained → Prop
  | incomplete {b : Bytes} (h : next v limit b = .incomplete) : Tiled v limit b ⟨[], none, b⟩
  | refused {b : Bytes} {e : Error} {rest : Bytes} (h : next v limit b = .refused e rest) :
      Tiled v limit b ⟨[], some e, rest⟩
  | packet {f b : Bytes} {p : Packet} {d : Drained} (h : Framed v limit f p)
      (hd : Tiled v limit b d) : Tiled v limit (f ++ b) { d with packets := p :: d.packets }

theorem tiled_drain (v : Version) (limit : Option Nat) (b : Bytes) :
    Tiled v limit b (drain v limit b) := by
  induction hlen : b.length using Nat.strongRecOn generalizing b with
  | ind m ih =>
    cases hnext : next v limit b with
    | incomplete =>
      rw [drain_of_incomplete hnext]
      exact .incomplete hnext
    | refused e rest =>
      rw [drain_of_refused hnext]
      exact .refused hnext
    | packet p rest =>
      have hlt := length_rest_lt hnext
      rw [drain_of_packet hnext]
      obtain ⟨f, rfl, hf⟩ := next_eq_packet_iff.1 hnext
      exact .packet hf (ih rest.length (by omega) rest rfl)

/-- What two drains in a row give: the second comes only if the first had no error. -/
def Drained.andThen (d d' : Drained) : Drained :=
  match d.error with
  | some _ => d
  | none => { d' with packets := d.packets ++ d'.packets }

/-- What the drains of several portions give up to the first error. -/
def collect (rest : Bytes) : List Drained → Drained
  | [] => ⟨[], none, rest⟩
  | d :: ds => d.andThen (collect d.rest ds)

/-- The same packets and the same error, and without an error the same octets left. -/
structure Drained.Agrees (d d' : Drained) : Prop where
  packets : d.packets = d'.packets
  error : d.error = d'.error
  rest : d.error = none → d.rest = d'.rest

namespace Drained

variable {d d' d'' : Drained}

theorem Agrees.trans (h : d.Agrees d') (h' : d'.Agrees d'') : d.Agrees d'' where
  packets := h.packets.trans h'.packets
  error := h.error.trans h'.error
  rest he := (h.rest he).trans (h'.rest (h.error ▸ he))

theorem Agrees.andThen (d : Drained) (h : d'.Agrees d'') :
    (d.andThen d').Agrees (d.andThen d'') := by
  obtain ⟨packets, error, rest⟩ := d
  cases error with
  | some e => exact ⟨rfl, rfl, fun _ => rfl⟩
  | none => exact ⟨congrArg (packets ++ ·) h.packets, h.error, h.rest⟩

/-- One more packet in front. -/
theorem Agrees.cons (p : Packet) (h : (d.andThen d').Agrees d'') :
    ({ d with packets := p :: d.packets }.andThen d').Agrees
      { d'' with packets := p :: d''.packets } := by
  obtain ⟨packets, error, rest⟩ := d
  cases error <;> exact ⟨congrArg (p :: ·) h.packets, h.error, h.rest⟩

end Drained

/-- To drain a stream, drain its beginning and go on with what is left. -/
theorem drain_append (v : Version) (limit : Option Nat) (b c : Bytes) :
    ((drain v limit b).andThen (drain v limit ((drain v limit b).rest ++ c))).Agrees
      (drain v limit (b ++ c)) := by
  induction hlen : b.length using Nat.strongRecOn generalizing b with
  | ind m ih =>
    cases hnext : next v limit b with
    | incomplete =>
      rw [drain_of_incomplete hnext]
      exact ⟨rfl, rfl, fun _ => rfl⟩
    | refused e rest =>
      have hmore := next_append (by rw [hnext]; nofun) c
      rw [hnext] at hmore
      rw [drain_of_refused hnext, drain_of_refused hmore]
      exact ⟨rfl, rfl, nofun⟩
    | packet p rest =>
      have hmore := next_append (by rw [hnext]; nofun) c
      rw [hnext] at hmore
      have hlt := length_rest_lt hnext
      rw [drain_of_packet hnext, drain_of_packet hmore]
      exact (ih rest.length (by omega) rest rfl).cons p

/-- What is left without an error is incomplete. -/
theorem Tiled.incomplete_rest {d : Drained} (h : Tiled v limit b d) (he : d.error = none) :
    next v limit d.rest = .incomplete := by
  induction h with
  | incomplete h => exact h
  | refused h => cases he
  | packet hf hd ih => exact ih he

/-- Drained portion by portion, a stream gives what it gives at once. -/
theorem collect_feed {rest : Bytes} (hrest : next v limit rest = .incomplete)
    (portions : List Bytes) :
    (collect rest (feed v limit rest portions)).Agrees
      (drain v limit (rest ++ portions.flatten)) := by
  induction portions generalizing rest with
  | nil =>
    rw [List.flatten_nil, List.append_nil, drain_of_incomplete hrest]
    exact ⟨rfl, rfl, fun _ => rfl⟩
  | cons portion portions ih =>
    have happend := drain_append v limit (rest ++ portion) portions.flatten
    rw [List.append_assoc] at happend
    rw [List.flatten_cons]
    change ((drain v limit (rest ++ portion)).andThen (collect (drain v limit (rest ++ portion)).rest
      (feed v limit (drain v limit (rest ++ portion)).rest portions))).Agrees _
    refine Drained.Agrees.trans ?_ happend
    cases he : (drain v limit (rest ++ portion)).error with
    | some e =>
      simp only [Drained.andThen, he]
      exact ⟨rfl, rfl, fun _ => rfl⟩
    | none => exact (ih ((tiled_drain v limit _).incomplete_rest he)).andThen _

/-- However a stream is cut into portions, they give the packets and the error of the whole, and
without an error the same octets are left. The packets are those of consecutive frames at the front
of the stream, each of them within the limit and complete, and then an error follows or what is left
is incomplete. A frame over the limit is refused from its header on, whether or not more of it has
arrived. -/
theorem portions_alike (v : Version) (limit : Option Nat) (portions : List Bytes) :
    (collect [] (feed v limit [] portions)).Agrees (drain v limit portions.flatten) ∧
    Tiled v limit portions.flatten (drain v limit portions.flatten) ∧
    ∀ (b : Bytes) (h : Header) (n max : Nat), limit = some max →
      Header.peek? b = .ok (some (h, n)) → max < n + h.length → ∀ more : Bytes,
      drain v limit (b ++ more) = ⟨[], some (.packetTooLarge (n + h.length) max), b ++ more⟩ := by
  refine ⟨collect_feed rfl portions, tiled_drain v limit _, ?_⟩
  rintro b h n max rfl hp hover more
  have hp' : Header.peek? (b ++ more) = .ok (some (h, n)) := by
    rw [Header.peek?_append (by rw [hp]; nofun), hp]
  exact drain_of_refused (next_of_over hp' hover)

/-- A PINGRESP, a PUBACK and the beginning of a PUBLISH of 131 octets, cut in the middle of headers
and of bodies. -/
def cuts : List Bytes := [[208], [0, 64, 2, 0], [1, 48, 128], [], [1, 0, 1]]

/-- The PUBLISH is refused when the third octet of its header has arrived. -/
theorem portions_alike_cuts :
    (collect [] (feed .v5 (some 5) [] cuts)).Agrees (drain .v5 (some 5) cuts.flatten) ∧
      drain .v5 (some 5) cuts.flatten =
        ⟨[.pingResp, .ack .pubAck ⟨1, .success, .empty⟩], some (.packetTooLarge 131 5),
          [48, 128, 1, 0, 1]⟩ ∧
      Header.peek? [48, 128, 1] = .ok (some (⟨.publish, 0, 128⟩, 3)) ∧
      drain .v5 (some 5) ([48, 128, 1] ++ []) =
        ⟨[], some (.packetTooLarge 131 5), [48, 128, 1] ++ []⟩ := by
  obtain ⟨hagrees, -, hover⟩ := portions_alike .v5 (some 5) cuts
  have hpeek : Header.peek? [48, 128, 1] = .ok (some (⟨.publish, 0, 128⟩, 3)) := by decide
  exact ⟨hagrees, by decide, hpeek, hover _ _ _ 5 rfl hpeek (by decide) []⟩

end Stream

end Mqtt
