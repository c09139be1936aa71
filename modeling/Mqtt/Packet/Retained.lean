import Mqtt.Packet.Codec

/-!
# Retained frames

The frames that a session keeps in order to send them again. `Retained.ack` makes the frame of an
acknowledgment; `Retained.convert` says in one version what a frame says in another, as far as that
version can say it: v3.1.1 has no properties and no reasons.
-/

namespace Mqtt

/-- A packet of the types that are retained, as a version can say it. -/
def Packet.inVersion (v : Version) : Packet → Except Error Packet
  | .publish p =>
    .ok (.publish { p with
      version := v
      properties :=
        match v with
        | .v311 => .empty
        | .v5 => p.properties })
  | .ack .pubRel a => .ok (.ack .pubRel (a.inVersion v))
  | .ack .pubRec a => .ok (.ack .pubRec (a.inVersion v))
  | p => .error (.corrupt (.retained p.packetType))

namespace Retained

/-- The frame of an acknowledgment with a reason. -/
def ack (v : Version) (kind : AckKind) (id : UInt16) (reason : Reason) : Except Error Bytes :=
  (Packet.ack kind ((Ack.ofReason id reason).inVersion v)).toBytes

/-- A frame of the version `old` in the version `new`. -/
def convert (frame : Bytes) (old new : Version) : Except Error Bytes := do
  (← (← Packet.decodeFrame frame old).inVersion new).toBytes

end Retained

end Mqtt
