import Mqtt.Client.Connection
import Mqtt.Client.Receive
import Mqtt.Client.Request

/-!
# Operations and runs

The inputs of a client as values, so that histories can be spoken of: `Op.react` is the reaction to
one operation, `Client.step` its outcome, and `Client.after` the client that a list of operations
leaves behind.

`publishMany` and `restoreAll` repeat an operation.
-/

namespace Mqtt

namespace Client

/-- An input of a client. -/
inductive Op
  | connect (options : ConnectOptions) (now : Nat)
  /-- A packet from the server. -/
  | receive (p : Packet)
  /-- A packet, whether or not it may come now. -/
  | handle (p : Packet)
  | request (r : Request)
  | abandon (id : UInt16)
  | ping
  | disconnect (now : Nat)
  | connectionLost (now : Nat)
  | restore (id : UInt16) (data : Bytes)
  deriving DecidableEq

/-- The reaction to an operation. It yields the identifier that was chosen for a request. -/
def Op.react : Op → Reaction (Option UInt16)
  | .connect o now => do Reaction.connect o now; return none
  | .receive p => do Reaction.receive p; return none
  | .handle p => do Reaction.handle p; return none
  | .request r => r.react
  | .abandon id => do Reaction.abandon id; return none
  | .ping => do Reaction.ping; return none
  | .disconnect now => do Reaction.disconnect now; return none
  | .connectionLost now => do Reaction.connectionLost now; return none
  | .restore id data => do Reaction.restore id data; return none

/-- The outcome of an operation. -/
def step (c : Client) (op : Op) : Outcome (Option UInt16) := op.react.run c

/-- The client after operations. -/
def after (c : Client) (ops : List Op) : Client := ops.foldl (fun c op => (c.step op).client) c

/-- The actions of operations, in order. -/
def actionsOf (c : Client) : List Op → List Action
  | [] => []
  | op :: ops => (c.step op).actions ++ (c.step op).client.actionsOf ops

/-! ## Repetition -/

/-- Publish a message `n` times, or until it is refused. Nothing of it is carried out. -/
def publishMany (c : Client) (p : Publish) (n : Nat) : Batch (Option UInt16) × Client :=
  Batch.run (fun c =>
    let o := c.step (.request (.publish p))
    (o.result, o.client)) n c

/-- Take in records, each for itself. -/
def restoreAll (c : Client) : List (Key × Bytes) → List (Except Error Key) × Client
  | [] => ([], c)
  | (k, data) :: records =>
    let o := c.step (.restore k.id data)
    let (results, c) := o.client.restoreAll records
    (o.result.map (fun _ => k) :: results, c)

end Client

end Mqtt
