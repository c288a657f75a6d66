import StepLocator.Json.Printer
import StepLocator.Json.Reader
import StepLocator.Text.Blank
import StepLocator.Text.Lines
import StepLocator.Path.Basic
import StepLocator.Path.Uri
import StepLocator.Log.Record
import StepLocator.Registry.Reference
import StepLocator.Registry.Target
import StepLocator.Files.Access
import StepLocator.Files.Canonical
import StepLocator.Files.Change
import StepLocator.Agent.Basic
import StepLocator.Document
import StepLocator.Shape.Finding
import StepLocator.Shape.Integer
import StepLocator.Session.Controller
import StepLocator.Server.Answer
import StepLocator.Server.Handlers
import StepLocator.Client.Frame
import StepLocator.Client.Incoming
import StepLocator.Client.Reply
import StepLocator.Client.Channel
import StepLocator.Server.Endpoint
import StepLocator.Client.Consultation
import StepLocator.Client.Local
import StepLocator.Toml.Reader
import StepLocator.Log.Level
import StepLocator.Settings.Basic
import StepLocator.Settings.Configuration
import StepLocator.Settings.Layered
import StepLocator.Log.Router
import StepLocator.Server.Start
import StepLocator.CommandLine.Arguments
import StepLocator.CommandLine.Command
import StepLocator.Main
import StepLocator.Proofs.Path.Text
import StepLocator.Proofs.Path.Normal
import StepLocator.Proofs.Agent.Reload
import StepLocator.Proofs.Agent.Snapshot
import StepLocator.Proofs.Agent.Run
import StepLocator.Proofs.Session.Handshake
import StepLocator.Proofs.Registry.Containment
import StepLocator.Proofs.Session.Run
import StepLocator.Proofs.Text.Utf8
import StepLocator.Proofs.Number.Digits
import StepLocator.Proofs.Client.Framing
import StepLocator.Proofs.Client.Exchange
import StepLocator.Proofs.Client.Stream
import StepLocator.Proofs.Json.Strings
import StepLocator.Proofs.Json.RoundTrip
import StepLocator.Proofs.Text.Percent
import StepLocator.Proofs.Path.Uri
import StepLocator.Proofs.Files.Canonical
import StepLocator.Proofs.Server.Handlers
import StepLocator.Proofs.Server.Run
import StepLocator.Proofs.Server.Generations
import StepLocator.Proofs.Server.Endpoint
import StepLocator.Proofs.Server.Messages
import StepLocator.Proofs.Client.Await
import StepLocator.Proofs.Client.Conversation
import StepLocator.Proofs.Client.Agreement
import StepLocator.Proofs.Client.Outcome
import StepLocator.Proofs.Client.Reaping
import StepLocator.Proofs.Client.Trace
import StepLocator.Proofs.Client.Order
import StepLocator.Proofs.Client.Addresses
import StepLocator.Proofs.Settings.Configuration
import StepLocator.Proofs.Settings.Layers
import StepLocator.Proofs.Log.Handlers
import StepLocator.Proofs.Files.Tree
import StepLocator.Proofs.Files.Growth
import StepLocator.Proofs.Log.Delivery
import StepLocator.Proofs.Log.Journal
import StepLocator.Proofs.Text.Escapes
import StepLocator.Proofs.Path.Targets
import StepLocator.Proofs.Server.Locations
import StepLocator.Proofs.Server.Rejections
import StepLocator.Proofs.Server.Documents
import StepLocator.Proofs.Text.Trimming
import StepLocator.Proofs.Registry.Mention
import StepLocator.Proofs.Files.Entries
import StepLocator.Proofs.Agent.Walk
import StepLocator.Proofs.Registry.Indexed
import StepLocator.Proofs.Session.Roots
import StepLocator.Proofs.Client.Reading
import StepLocator.Proofs.Client.Faults
import StepLocator.Proofs.Client.Parsing
import StepLocator.Proofs.Client.Request
import StepLocator.Proofs.Files.Shape
import StepLocator.Proofs.Agent.Coverage
import StepLocator.Proofs.Server.Reloading
import StepLocator.Proofs.Text.Decoding
import StepLocator.Proofs.Text.LineEnds
import StepLocator.Proofs.Document
import StepLocator.Proofs.Registry.Distinct
import StepLocator.Proofs.Registry.Roots
import StepLocator.Proofs.Registry.Conventional
import StepLocator.Proofs.Session.Readings
import StepLocator.Proofs.CommandLine.Question
import StepLocator.Proofs.Toml.Scalars
import StepLocator.Proofs.Toml.Faults
import StepLocator.Proofs.Settings.Fallback
