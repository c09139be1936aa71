import Mqtt.Link.Operation
import Mqtt.Link.Pipe
import Mqtt.Options.Description
import Mqtt.Options.Format
import Mqtt.Proofs.Client.ExactlyOnce
import Mqtt.Proofs.Client.Identifiers
import Mqtt.Proofs.Client.Persistence
import Mqtt.Proofs.Wire.Reading
import Mqtt.Proofs.Packet.Role
import Mqtt.Proofs.Client.Deeds
import Mqtt.Proofs.Client.WriteAhead
import Mqtt.Proofs.Client.Transmission
import Mqtt.Proofs.Client.Agreement
import Mqtt.Proofs.Client.Blindness
import Mqtt.Proofs.Client.Restart
import Mqtt.Proofs.Client.Prompt
import Mqtt.Proofs.Link.InStep
import Mqtt.Proofs.Client.Refusal
import Mqtt.Proofs.Packet.RoundTrip
import Mqtt.Proofs.Packet.Stream
import Mqtt.Proofs.Client.Answers
import Mqtt.Proofs.Packet.Acceptance
import Mqtt.Proofs.Client.Origins
import Mqtt.Proofs.Client.Retained
import Mqtt.Proofs.Client.Accepted
import Mqtt.Proofs.Client.ShortForm
import Mqtt.Proofs.Client.Retention
import Mqtt.Proofs.Client.Concern
import Mqtt.Proofs.Client.Resumption
import Mqtt.Proofs.Client.Migration
import Mqtt.Proofs.Client.Closing
import Mqtt.Proofs.Link.Account
import Mqtt.Proofs.Link.Ending
import Mqtt.Proofs.Session.LowestFree
import Mqtt.Proofs.Link.Opening
import Mqtt.Proofs.Wire.Yield
import Mqtt.Proofs.Property.Yield
import Mqtt.Proofs.Packet.Normal
import Mqtt.Proofs.Link.Alike
import Mqtt.Proofs.Link.RollBack
import Mqtt.Proofs.Wire.Guard
import Mqtt.Proofs.Packet.Guard
import Mqtt.Proofs.Packet.Identifier
import Mqtt.Proofs.Packet.Leftover
import Mqtt.Proofs.Wire.Spelling
import Mqtt.Proofs.Wire.Drain
import Mqtt.Proofs.Property.Guard
import Mqtt.Proofs.Property.RoundTrip
import Mqtt.Proofs.Session.Record
import Mqtt.Proofs.Client.Truncation
import Mqtt.Proofs.Session.InsertionOrder
import Mqtt.Proofs.Wire.SelfDelimiting
