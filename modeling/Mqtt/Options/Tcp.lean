import Mqtt.Duration
import Mqtt.Error
import Mqtt.Text.Address

/-!
# Transports that are not connected

The options of a TCP transport, and the transport before it is connected: it can be closed, and
nothing else.
-/

namespace Mqtt

/-- The options of a TCP transport. -/
structure TcpOptions where
  address : SocketAddress
  connectTimeout : Duration := .ofSecs 30
  noDelay : Bool := true
  deriving DecidableEq

/-- A TCP transport that is not connected. -/
structure TcpTransport where
  options : TcpOptions
  deriving DecidableEq

namespace TcpTransport

/-- Whether it is connected. -/
def isConnected (_ : TcpTransport) : Bool := false

/-- Read octets. -/
def read (_ : TcpTransport) : Except Error Bytes := .error .notConnected

/-- Write octets. -/
def write (_ : TcpTransport) (_ : Bytes) : Except Error Unit := .error .notConnected

/-- Close it. -/
def close (_ : TcpTransport) : Except Error Unit := .ok ()

end TcpTransport

end Mqtt
