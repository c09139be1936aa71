import Mqtt.Packet.Connection
import Mqtt.Packet.Publish
import Mqtt.Packet.Ack
import Mqtt.Packet.Subscription

/-!
# Control packets

`Packet.encode` writes a packet: the body is written aside first, since the header holds its
length, so a body that cannot be written leaves nothing behind. `Packet.decodeBody` reads the body
behind a header, `Packet.decodeFrame` the octets of one whole packet.
-/

namespace Mqtt

/-- A control packet. -/
inductive Packet
  | connect (p : Connect)
  | connAck (p : ConnAck)
  | publish (p : Publish)
  | ack (kind : AckKind) (p : Ack)
  | subscribe (p : Subscribe)
  | subAck (p : FilterAck)
  | unsubscribe (p : Unsubscribe)
  | unsubAck (p : FilterAck)
  | pingReq
  | pingResp
  | disconnect (p : Disconnect)
  deriving DecidableEq

namespace Packet

/-- The type of a packet. -/
def packetType : Packet → PacketType
  | .connect _ => .connect
  | .connAck _ => .connAck
  | .publish _ => .publish
  | .ack kind _ => kind.packetType
  | .subscribe _ => .subscribe
  | .subAck _ => .subAck
  | .unsubscribe _ => .unsubscribe
  | .unsubAck _ => .unsubAck
  | .pingReq => .pingReq
  | .pingResp => .pingResp
  | .disconnect _ => .disconnect

/-- The identifier that a packet carries. -/
def id? : Packet → Option UInt16
  | .publish p => p.id
  | .ack _ p => some p.id
  | .subscribe p => some p.id
  | .subAck p => some p.id
  | .unsubscribe p => some p.id
  | .unsubAck p => some p.id
  | .connect _ | .connAck _ | .pingReq | .pingResp | .disconnect _ => none

/-! ## Writing -/

/-- The flags of the fixed header. -/
def flags : Packet → UInt8
  | .publish p => p.flags
  | .ack kind _ => kind.flags
  | .subscribe _ | .unsubscribe _ => 0x02
  | _ => 0x00

/-- Write the body of a packet. -/
def encodeBody : Packet → Output
  | .connect p => p.encodeBody
  | .connAck p => p.encodeBody
  | .publish p => p.encodeBody
  | .ack _ p => p.encodeBody
  | .subscribe p => p.encodeBody
  | .subAck p => p.encodeSubAck
  | .unsubscribe p => p.encodeBody
  | .unsubAck p => p.encodeUnsubAck
  | .pingReq | .pingResp => .empty
  | .disconnect p => p.encodeBody

/-- Write a packet. -/
def encode (p : Packet) : Output :=
  let body := p.encodeBody
  match body.error with
  | some e => .fail e
  | none =>
    let length := body.bytes.length
    if length < 4294967296 then
      (Header.mk p.packetType p.flags length).encode ++ .put body.bytes
    else .fail (.packetTooLarge length VarInt.max)

/-- The octets of a packet. -/
def toBytes (p : Packet) : Except Error Bytes := p.encode.toExcept

/-! ## Reading -/

/-- Read the body behind a header. -/
def decodeBody (h : Header) (v : Version) : Decoder Packet :=
  match h.packet with
  | .connect => .connect <$> Connect.decodeBody
  | .connAck => .connAck <$> ConnAck.decodeBody v
  | .publish => .publish <$> Publish.decodeBody h.flags v
  | .pubAck => .ack .pubAck <$> Ack.decodeBody .pubAck h.flags h.length
  | .pubRec => .ack .pubRec <$> Ack.decodeBody .pubRec h.flags h.length
  | .pubRel => .ack .pubRel <$> Ack.decodeBody .pubRel h.flags h.length
  | .pubComp => .ack .pubComp <$> Ack.decodeBody .pubComp h.flags h.length
  | .subscribe => .subscribe <$> Subscribe.decodeBody h.flags v
  | .subAck => .subAck <$> FilterAck.decodeSubAck v
  | .unsubscribe => .unsubscribe <$> Unsubscribe.decodeBody h.flags v
  | .unsubAck => .unsubAck <$> FilterAck.decodeUnsubAck v
  | .pingReq => pure .pingReq
  | .pingResp => pure .pingResp
  | .disconnect => .disconnect <$> Disconnect.decodeBody v
  | .auth => .refuse (.protocol .authUnsupported)

/-- The packet with these octets. The length in the header has to be that of the body; whether the
body holds more than the packet needs is not looked at. -/
def decodeFrame (b : Bytes) (v : Version) : Except Error Packet := do
  match ← Header.peek? b with
  | none => .error (.malformed .truncatedHeader)
  | some (h, n) =>
    let body := b.drop n
    if body.length = h.length then (decodeBody h v).runOn body
    else .error (.malformed (.lengthMismatch h.length body.length))

end Packet

end Mqtt
