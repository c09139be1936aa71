import Mqtt.Json.Format
import Mqtt.Options.Basic
import Mqtt.Options.Tcp

/-!
# Options as JSON

The JSON forms of options. Every field of the options of a connection and of a client has a
default; a will needs all but its delay and TCP options need their address. A duration is its whole
seconds and the nanoseconds beyond them, with no other member.
-/

namespace Mqtt

open Json

instance : Format Version where
  read? := named? Version.all Version.name
  write v := .text (some v.name)

instance : Format QoS where
  read? := named? QoS.all QoS.name
  write q := .text (some q.name)

/-- A duration of seconds and nanoseconds, if the seconds fit in 64 bits with those that the
nanoseconds make up. -/
def Duration.ofParts? (secs : Nat) (nanos : UInt32) : Option Duration :=
  let d : Duration := ⟨secs * 1000000000 + nanos.toNat⟩
  if d.secs < 18446744073709551616 then some d else none

/-- The names of the parts of a duration. -/
def Duration.parts : List String := ["secs", "nanos"]

/-- Whether every member of an object is a part of a duration. -/
def Duration.closed : Json.Value → Bool
  | .object members => members.all fun m => m.1.any Duration.parts.contains
  | _ => true

instance : Format Duration where
  read? v := do
    if !Duration.closed v then none
    match ← fields? Duration.parts v with
    | [secs, nanos] => Duration.ofParts? (← field secs) (← field nanos)
    | _ => none
  write d := object [("secs", .natural d.secs), ("nanos", .natural d.subsecNanos)]

instance : Format KeepAlive.Config where
  read? v := do
    match ← fields? ["ping_interval_percent", "timeout_percent"] v with
    | [ping, timeout] =>
      let d : KeepAlive.Config := {}
      return ⟨← fieldOr d.pingPercent ping, ← fieldOr d.timeoutPercent timeout⟩
    | _ => none
  write c := object [
    ("ping_interval_percent", Format.write c.pingPercent),
    ("timeout_percent", Format.write c.timeoutPercent)]

instance : Format ClientOptions where
  read? v := do
    match ← fields? ["auto_ack", "max_incoming_packet_size", "keepalive"] v with
    | [autoAck, maxIncoming, keepAlive] =>
      let d : ClientOptions := {}
      return ⟨← fieldOr d.autoAck autoAck, ← fieldOr d.maxIncoming maxIncoming,
        ← fieldOr d.keepAlive keepAlive⟩
    | _ => none
  write o := object [
    ("auto_ack", Format.write o.autoAck),
    ("max_incoming_packet_size", Format.write o.maxIncoming),
    ("keepalive", Format.write o.keepAlive)]

instance : Format Will where
  read? v := do
    match ← fields? ["topic", "payload", "qos", "retain", "delay_interval"] v with
    | [topic, payload, qos, retain, delay] =>
      return ⟨← field topic, ← field payload, ← field qos, ← field retain, ← fieldOr none delay⟩
    | _ => none
  write w := object [
    ("topic", Format.write w.topic),
    ("payload", Format.write w.payload),
    ("qos", Format.write w.qos),
    ("retain", Format.write w.retain),
    ("delay_interval", Format.write w.delay)]

instance : Format ConnectProperties where
  read? v := do
    match ← fields? ["session_expiry_interval", "receive_maximum", "maximum_packet_size",
      "user_properties"] v with
    | [expiry, receive, size, user] =>
      return ⟨← fieldOr none expiry, ← fieldOr none receive, ← fieldOr none size,
        ← fieldOr [] user⟩
    | _ => none
  write p := object [
    ("session_expiry_interval", Format.write p.sessionExpiry),
    ("receive_maximum", Format.write p.receiveMaximum),
    ("maximum_packet_size", Format.write p.maximumPacketSize),
    ("user_properties", Format.write p.user)]

instance : Format ConnectOptions where
  read? v := do
    match ← fields? ["client_id", "keep_alive", "clean_start", "username", "password", "will",
      "properties", "protocol_version"] v with
    | [clientId, keepAlive, cleanStart, username, password, will, properties, version] =>
      let d : ConnectOptions := {}
      return {
        clientId := ← fieldOr d.clientId clientId
        keepAlive := ← fieldOr d.keepAlive keepAlive
        cleanStart := ← fieldOr d.cleanStart cleanStart
        username := ← fieldOr d.username username
        password := ← fieldOr d.password password
        will := ← fieldOr d.will will
        properties := ← fieldOr d.properties properties
        version := ← fieldOr d.version version }
    | _ => none
  write o := object [
    ("client_id", Format.write o.clientId),
    ("keep_alive", Format.write o.keepAlive),
    ("clean_start", Format.write o.cleanStart),
    ("username", Format.write o.username),
    ("password", Format.write o.password),
    ("will", Format.write o.will),
    ("properties", Format.write o.properties),
    ("protocol_version", Format.write o.version)]

instance : Format SocketAddress where
  read? v := Format.read? v >>= SocketAddress.read?
  write a := .text (some a.render)

instance : Format TcpOptions where
  read? v := do
    match ← fields? ["addr", "connect_timeout", "nodelay"] v with
    | [address, timeout, noDelay] =>
      return {
        address := ← field address
        connectTimeout := ← fieldOr (.ofSecs 30) timeout
        noDelay := ← fieldOr true noDelay }
    | _ => none
  write o := object [
    ("addr", Format.write o.address),
    ("connect_timeout", Format.write o.connectTimeout),
    ("nodelay", Format.write o.noDelay)]

end Mqtt
