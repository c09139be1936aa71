/-!
# Vocabulary

The small closed sets of the protocol: its versions, qualities of service, directions of an
exchange and types of control packet. Each has its number on the wire and, where a message or a
record shows one, its name. Reading a number is looking it up in the list of all members, so
`ofByte?_toByte` holds by looking at each member, and what was found has that number:
`toByte_of_find?`.
-/

namespace Mqtt

theorem toByte_of_find? {α : Type} {toByte : α → UInt8} {all : List α} {b : UInt8} {a : α}
    (h : all.find? (toByte · == b) = some a) : toByte a = b := by
  simpa using List.find?_some h

/-! ## Protocol versions -/

/-- The protocol versions spoken. -/
inductive Version
  | v311
  | v5
  deriving DecidableEq, Repr, Inhabited

namespace Version

/-- Every version. -/
def all : List Version := [.v311, .v5]

/-- The protocol level of CONNECT. -/
def toByte : Version → UInt8
  | .v311 => 4
  | .v5 => 5

/-- The version with a protocol level. -/
def ofByte? (b : UInt8) : Option Version := all.find? (·.toByte == b)

/-- The version's name. -/
def name : Version → String
  | .v311 => "V311"
  | .v5 => "V5"

@[simp] theorem ofByte?_toByte (v : Version) : ofByte? v.toByte = some v := by cases v <;> rfl

end Version

/-! ## Quality of service -/

/-- The delivery guarantee of a message. -/
inductive QoS
  | atMostOnce
  | atLeastOnce
  | exactlyOnce
  deriving DecidableEq, Repr, Inhabited

namespace QoS

/-- Every level. -/
def all : List QoS := [.atMostOnce, .atLeastOnce, .exactlyOnce]

/-- The level's number. -/
def toByte : QoS → UInt8
  | .atMostOnce => 0
  | .atLeastOnce => 1
  | .exactlyOnce => 2

/-- The level with a number. -/
def ofByte? (b : UInt8) : Option QoS := all.find? (·.toByte == b)

/-- The level's name. -/
def name : QoS → String
  | .atMostOnce => "AtMostOnce"
  | .atLeastOnce => "AtLeastOnce"
  | .exactlyOnce => "ExactlyOnce"

@[simp] theorem ofByte?_toByte (q : QoS) : ofByte? q.toByte = some q := by cases q <;> rfl

end QoS

/-! ## Directions -/

/-- Who published the message of an exchange. -/
inductive Direction
  /-- This client published. -/
  | outbound
  /-- The peer published at QoS 2; the exchange waits for PUBREL. -/
  | inbound
  deriving DecidableEq, Repr, Inhabited

namespace Direction

/-- Both directions. -/
def all : List Direction := [.outbound, .inbound]

/-- The direction's number in a record. -/
def toByte : Direction → UInt8
  | .outbound => 0
  | .inbound => 1

/-- The direction with a number. -/
def ofByte? (b : UInt8) : Option Direction := all.find? (·.toByte == b)

/-- The direction's name. -/
def name : Direction → String
  | .outbound => "Outbound"
  | .inbound => "Inbound"

@[simp] theorem ofByte?_toByte (d : Direction) : ofByte? d.toByte = some d := by cases d <;> rfl

end Direction

/-! ## Types of control packet -/

/-- The types of control packet. -/
inductive PacketType
  | connect
  | connAck
  | publish
  | pubAck
  | pubRec
  | pubRel
  | pubComp
  | subscribe
  | subAck
  | unsubscribe
  | unsubAck
  | pingReq
  | pingResp
  | disconnect
  | auth
  deriving DecidableEq, Repr, Inhabited

namespace PacketType

/-- Every type, in the order of their numbers. -/
def all : List PacketType :=
  [.connect, .connAck, .publish, .pubAck, .pubRec, .pubRel, .pubComp, .subscribe, .subAck,
    .unsubscribe, .unsubAck, .pingReq, .pingResp, .disconnect, .auth]

/-- The type's number, the high half of a packet's first octet. -/
def toByte : PacketType → UInt8
  | .connect => 1
  | .connAck => 2
  | .publish => 3
  | .pubAck => 4
  | .pubRec => 5
  | .pubRel => 6
  | .pubComp => 7
  | .subscribe => 8
  | .subAck => 9
  | .unsubscribe => 10
  | .unsubAck => 11
  | .pingReq => 12
  | .pingResp => 13
  | .disconnect => 14
  | .auth => 15

/-- The type with a number. -/
def ofByte? (b : UInt8) : Option PacketType := all.find? (·.toByte == b)

/-- The type's name. -/
def name : PacketType → String
  | .connect => "Connect"
  | .connAck => "ConnAck"
  | .publish => "Publish"
  | .pubAck => "PubAck"
  | .pubRec => "PubRec"
  | .pubRel => "PubRel"
  | .pubComp => "PubComp"
  | .subscribe => "Subscribe"
  | .subAck => "SubAck"
  | .unsubscribe => "Unsubscribe"
  | .unsubAck => "UnsubAck"
  | .pingReq => "PingReq"
  | .pingResp => "PingResp"
  | .disconnect => "Disconnect"
  | .auth => "Auth"

/-- The type as the standard writes it. -/
def label : PacketType → String
  | .connect => "CONNECT"
  | .connAck => "CONNACK"
  | .publish => "PUBLISH"
  | .pubAck => "PUBACK"
  | .pubRec => "PUBREC"
  | .pubRel => "PUBREL"
  | .pubComp => "PUBCOMP"
  | .subscribe => "SUBSCRIBE"
  | .subAck => "SUBACK"
  | .unsubscribe => "UNSUBSCRIBE"
  | .unsubAck => "UNSUBACK"
  | .pingReq => "PINGREQ"
  | .pingResp => "PINGRESP"
  | .disconnect => "DISCONNECT"
  | .auth => "AUTH"

@[simp] theorem ofByte?_toByte (t : PacketType) : ofByte? t.toByte = some t := by
  cases t <;> rfl

end PacketType

end Mqtt
