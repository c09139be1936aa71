import Mqtt.KeepAlive
import Mqtt.Packet.Connection

/-!
# Options

What a connection is asked for (`ConnectOptions`), how the client behaves on every connection
(`ClientOptions`), and the CONNECT packet that the former make.
-/

namespace Mqtt

/-! ## Options of a connection -/

/-- The v5.0 properties of a connection. -/
structure ConnectProperties where
  sessionExpiry : Option UInt32 := none
  receiveMaximum : Option UInt16 := none
  maximumPacketSize : Option UInt32 := none
  user : List (String × String) := []
  deriving DecidableEq, Inhabited

/-- What a connection is asked for. -/
structure ConnectOptions where
  clientId : String := ""
  keepAlive : Duration := .ofSecs 60
  cleanStart : Bool := true
  username : Option String := none
  password : Option Bytes := none
  will : Option Will := none
  properties : ConnectProperties := {}
  version : Version := .v5
  deriving DecidableEq

namespace ConnectOptions

/-- The keep-alive in whole seconds, at most what CONNECT can carry. -/
def keepAliveSecs (o : ConnectOptions) : UInt16 := UInt16.ofNat (min o.keepAlive.secs 65535)

/-- The largest packet that the server is told to send; v3.1.1 cannot tell it. -/
def advertisedLimit (o : ConnectOptions) : Option Nat :=
  match o.version with
  | .v311 => none
  | .v5 => o.properties.maximumPacketSize.map (·.toNat)

end ConnectOptions

/-- The properties as a CONNECT carries them. -/
def ConnectProperties.toProperties (p : ConnectProperties) : Properties :=
  let ps := (p.sessionExpiry.map Properties.empty.setSessionExpiry).getD .empty
  let ps := (p.receiveMaximum.map ps.setReceiveMaximum).getD ps
  let ps := (p.maximumPacketSize.map ps.setMaximumPacketSize).getD ps
  p.user.foldl (fun ps u => ps.addUser u.1 u.2) ps

/-- The CONNECT packet that asks for the options. -/
def Connect.ofOptions (o : ConnectOptions) : Connect where
  version := o.version
  clientId := o.clientId
  keepAlive := o.keepAliveSecs
  cleanStart := o.cleanStart
  username := o.username
  password := o.password
  will := o.will
  properties :=
    match o.version with
    | .v311 => .empty
    | .v5 => o.properties.toProperties

/-! ## Options of the client -/

/-- How the client behaves on every connection. -/
structure ClientOptions where
  /-- Answer PUBLISH, PUBREC and PUBREL without asking the application. -/
  autoAck : Bool := true
  /-- The largest packet accepted, if there is a limit. -/
  maxIncoming : Option Nat := some 1048576
  keepAlive : KeepAlive.Config := {}
  deriving DecidableEq, Inhabited

end Mqtt
