import Mqtt.Session.Exchange

/-!
# Records of exchanges

An exchange is kept outside the process as a record: seven octets and the retained frame.

| octets | meaning |
|--------|---------|
| 1 | format, 1 |
| 1 | direction |
| 1 | type of packet awaited |
| 1 | quality of service |
| 1 | protocol version, 4 or 5 |
| 2 | packet identifier |
| rest | retained frame |

`Record.decode` accepts a record only for the identifier it was written for, and only if it holds an
exchange that can be; every refusal is `Error.corrupt`.
-/

namespace Mqtt

namespace Record

/-- The number of the record format. -/
def format : UInt8 := 1

/-- The record of an exchange. -/
def encode (e : Exchange) : Bytes :=
  [format, e.direction.toByte, e.awaits.toByte, e.qos.toByte, e.version.toByte] ++
    Bytes.ofWord e.id ++ e.frame

/-- A value that a number stands for, or a corruption. -/
def known {α : Type} (found : Option α) (c : Corrupt) : Except Error α :=
  match found with
  | some a => .ok a
  | none => .error (.corrupt c)

/-- Every refusal as a corruption. -/
def asCorrupt : Error → Error
  | .corrupt c => .corrupt c
  | e => .corrupt (.other e.message)

/-- The exchange that a record holds, if it is one for `id`. -/
def decode (id : UInt16) (data : Bytes) : Except Error Exchange := do
  match data with
  | f :: d :: t :: q :: v :: hi :: lo :: first :: rest =>
    if f ≠ format then throw (.corrupt (.format f))
    let direction ← known (Direction.ofByte? d) (.direction d)
    let awaits ← known (PacketType.ofByte? t) (.packetType t)
    let qos ← known (QoS.ofByte? q) (.qos q)
    let version ← known (Version.ofByte? v) (.version v)
    let recorded := Bytes.word hi lo
    if recorded ≠ id then throw (.corrupt (.otherIdentifier recorded id))
    (Exchange.mk id direction awaits qos (first :: rest) version).checked.mapError asCorrupt
  | _ => throw (.corrupt (.truncated data.length))

end Record

end Mqtt
