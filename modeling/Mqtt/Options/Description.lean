import Mqtt.Options.Basic
import Mqtt.Text.Description

/-!
# Descriptions of options

How the options of a connection are shown. A password is never shown, only that there is one.
-/

namespace Mqtt

open Description

/-- A will as it is shown. -/
def Will.describe (w : Will) : String :=
  record "WillMessage" [
    ("topic", text w.topic),
    ("payload", list (w.payload.map toString)),
    ("qos", w.qos.name),
    ("retain", toString w.retain),
    ("delay_interval", option (w.delay.map toString))]

/-- The v5.0 properties of a connection as they are shown. -/
def ConnectProperties.describe (p : ConnectProperties) : String :=
  record "ConnectProperties" [
    ("session_expiry_interval", option (p.sessionExpiry.map toString)),
    ("receive_maximum", option (p.receiveMaximum.map toString)),
    ("maximum_packet_size", option (p.maximumPacketSize.map toString)),
    ("user_properties", list (p.user.map fun u => tuple [text u.1, text u.2]))]

/-- The options of a connection as they are shown. -/
def ConnectOptions.describe (o : ConnectOptions) : String :=
  record "ConnectOptions" [
    ("client_id", text o.clientId),
    ("keep_alive", duration o.keepAlive),
    ("clean_start", toString o.cleanStart),
    ("username", option (o.username.map text)),
    ("password", option (o.password.map fun _ => text "[REDACTED]")),
    ("will", option (o.will.map Will.describe)),
    ("properties", o.properties.describe),
    ("protocol_version", o.version.name)]

end Mqtt
