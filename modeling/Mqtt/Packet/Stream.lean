import Mqtt.Packet.Codec

/-!
# Packets from a stream

Octets arrive in portions that need not end where packets end. `Stream.next` looks for a packet at
the front of what has arrived; `Stream.drain` takes packets until the rest is incomplete or refused,
and `Stream.feed` does so after a portion has arrived.

A packet over the size limit is refused as soon as its header is complete, and like a bad header it
leaves the octets where they are. A packet whose body is refused has been taken off the stream.
-/

namespace Mqtt

namespace Stream

/-- What the front of the octets that have arrived is. -/
inductive Next
  /-- More octets are needed. -/
  | incomplete
  /-- A packet, and the octets behind it. -/
  | packet (p : Packet) (rest : Bytes)
  /-- An error, and the octets that are left. -/
  | refused (e : Error) (rest : Bytes)
  deriving DecidableEq

/-- Whether a size is within a limit, if there is one. -/
def within (limit : Option Nat) (size : Nat) : Except Error Unit :=
  match limit with
  | none => .ok ()
  | some max => if max < size then .error (.packetTooLarge size max) else .ok ()

/-- Look for a packet at the front of the octets that have arrived. -/
def next (v : Version) (limit : Option Nat) (b : Bytes) : Next :=
  match Header.peek? b with
  | .error e => .refused e b
  | .ok none => .incomplete
  | .ok (some (h, n)) =>
    match within limit (n + h.length) with
    | .error e => .refused e b
    | .ok () =>
      let frame := b.take (n + h.length)
      if frame.length < n + h.length then .incomplete
      else
        let rest := b.drop (n + h.length)
        match (Packet.decodeBody h v).runOn (frame.drop n) with
        | .error e => .refused e rest
        | .ok p => .packet p rest

/-- The packets at the front of a stream, the error behind them if one follows, and the octets that
are left. -/
structure Drained where
  packets : List Packet
  error : Option Error
  rest : Bytes
  deriving DecidableEq

/-- Take at most `fuel` packets off the front. -/
def drainUpTo (v : Version) (limit : Option Nat) : Nat → Bytes → Drained
  | 0, b => ⟨[], none, b⟩
  | fuel + 1, b =>
    match next v limit b with
    | .incomplete => ⟨[], none, b⟩
    | .refused e rest => ⟨[], some e, rest⟩
    | .packet p rest =>
      let d := drainUpTo v limit fuel rest
      { d with packets := p :: d.packets }

/-- Take packets off the front until the rest is incomplete or refused. Every packet takes an octet
or more. -/
def drain (v : Version) (limit : Option Nat) (b : Bytes) : Drained :=
  drainUpTo v limit (b.length + 1) b

/-- Take packets off after each of several portions has arrived behind what was left before. -/
def feed (v : Version) (limit : Option Nat) (rest : Bytes) : List Bytes → List Drained
  | [] => []
  | portion :: portions =>
    let d := drain v limit (rest ++ portion)
    d :: feed v limit d.rest portions

end Stream

end Mqtt
