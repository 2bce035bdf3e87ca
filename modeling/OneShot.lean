import OneShot.Main
import OneShot.Rehearsal.Conversation
import OneShot.Rehearsal.Encounter
import OneShot.Rehearsal.Program
import OneShot.Proofs.Json.Strings
import OneShot.Proofs.Json.Integers
import OneShot.Proofs.Json.Machine
import OneShot.Proofs.Json.Passing
import OneShot.Proofs.Json.Values
import OneShot.Proofs.Json.Lacking
import OneShot.Proofs.Json.Truncation
import OneShot.Proofs.Message.Grammar
import OneShot.Proofs.Message.Reading
import OneShot.Proofs.Message.RoundTrip
import OneShot.Proofs.Message.Beginnings
import OneShot.Proofs.Message.Language
import OneShot.Proofs.Message.Truncation
import OneShot.Proofs.Framing.Unframed
import OneShot.Proofs.Framing.Payload
import OneShot.Proofs.Framing.Mismatch
import OneShot.Proofs.Framing.Steady
import OneShot.Proofs.Framing.Bounded
import OneShot.Proofs.Framing.AtOnce
import OneShot.Proofs.Framing.Unfinished
import OneShot.Proofs.Framing.Endings
import OneShot.Proofs.Framing.Offers
import OneShot.Proofs.Message.Plain
import OneShot.Proofs.Framing.Frames
import OneShot.Proofs.Framing.RoundTrip
import OneShot.Proofs.Exchange.Transfer
import OneShot.Proofs.Exchange.Waiting
import OneShot.Proofs.Server.Handling
import OneShot.Proofs.Server.Serving
import OneShot.Proofs.Server.Delivery
import OneShot.Proofs.Server.Slots
import OneShot.Proofs.Server.Isolation
import OneShot.Proofs.Server.Handlers
import OneShot.Proofs.Server.Shutdown
import OneShot.Proofs.Socket.Files
import OneShot.Proofs.Server.SocketFile
import OneShot.Proofs.Exchange.Meeting
import OneShot.Proofs.Exchange.Steps
import OneShot.Proofs.Exchange.Lifecycle
import OneShot.Proofs.Exchange.SingleUse
import OneShot.Proofs.Exchange.Outcome
import OneShot.Proofs.Exchange.Race
import OneShot.Proofs.Exchange.Deadline
import OneShot.Proofs.Toml.Strings
import OneShot.Proofs.Toml.Scalars
import OneShot.Proofs.Toml.Lines
import OneShot.Proofs.Toml.Written
import OneShot.Proofs.Toml.Documents
import OneShot.Proofs.Config.RoundTrip
import OneShot.Proofs.Config.Validation
import OneShot.Proofs.Config.Defaults
import OneShot.Proofs.Framing.Waiting
import OneShot.Proofs.Cli.Replies
import OneShot.Proofs.Cli.Overrides
import OneShot.Framing.LineCodec
import OneShot.Proofs.Framing.LineCodec
