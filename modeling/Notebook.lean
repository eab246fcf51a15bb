import Notebook.Actor.Analysis
import Notebook.Actor.Basic
import Notebook.Actor.Editing
import Notebook.Actor.Running
import Notebook.Actor.Step
import Notebook.Cell
import Notebook.Coordinator
import Notebook.Diagnostic
import Notebook.Discovery
import Notebook.Disk
import Notebook.Engine.Basic
import Notebook.Engine.Service
import Notebook.Engine.Startup
import Notebook.Engine.Work
import Notebook.Filename
import Notebook.Frame
import Notebook.Hub
import Notebook.Identifier
import Notebook.Intent
import Notebook.Json.Basic
import Notebook.Json.Binary64
import Notebook.Json.Document
import Notebook.Json.Record
import Notebook.Language
import Notebook.Main
import Notebook.Notice
import Notebook.Path
import Notebook.Position
import Notebook.Process.Host
import Notebook.Process.Stream
import Notebook.Process.Supervisor
import Notebook.Proofs.Actor.Announcements
import Notebook.Proofs.Actor.Changes
import Notebook.Proofs.Actor.Confinement
import Notebook.Proofs.Actor.Executions
import Notebook.Proofs.Actor.Exits
import Notebook.Proofs.Actor.Filing
import Notebook.Proofs.Actor.IdleCells
import Notebook.Proofs.Actor.Inquiries
import Notebook.Proofs.Actor.Installations
import Notebook.Proofs.Actor.Leaving
import Notebook.Proofs.Actor.Ledgers
import Notebook.Proofs.Actor.Mirror
import Notebook.Proofs.Actor.Navigation
import Notebook.Proofs.Actor.Owners
import Notebook.Proofs.Actor.Publishing
import Notebook.Proofs.Actor.Refusals
import Notebook.Proofs.Actor.Replica
import Notebook.Proofs.Actor.Replies
import Notebook.Proofs.Actor.Residents
import Notebook.Proofs.Actor.RunningCells
import Notebook.Proofs.Actor.ServiceNews
import Notebook.Proofs.Actor.ServiceStatus
import Notebook.Proofs.Actor.Serving
import Notebook.Proofs.Actor.Site
import Notebook.Proofs.Actor.Snapshots
import Notebook.Proofs.Actor.Storage
import Notebook.Proofs.Actor.WellFormed
import Notebook.Proofs.Directories
import Notebook.Proofs.Discovery
import Notebook.Proofs.Disk
import Notebook.Proofs.Expansion
import Notebook.Proofs.Frame.Agreement
import Notebook.Proofs.Frame.Payloads
import Notebook.Proofs.Frame.RoundTrip
import Notebook.Proofs.Gathering
import Notebook.Proofs.Hub.Broadcasts
import Notebook.Proofs.Hub.Delivery
import Notebook.Proofs.Hub.Gate
import Notebook.Proofs.Hub.Indexes
import Notebook.Proofs.Hub.Lines
import Notebook.Proofs.Json.Fields
import Notebook.Proofs.Json.Prefixes
import Notebook.Proofs.Json.Printing
import Notebook.Proofs.Json.Rereading
import Notebook.Proofs.Json.Values
import Notebook.Proofs.Paths
import Notebook.Proofs.Position
import Notebook.Proofs.Process.Handles
import Notebook.Proofs.Process.Hosts
import Notebook.Proofs.Process.Runs
import Notebook.Proofs.Process.Streaming
import Notebook.Proofs.Process.Supervision
import Notebook.Proofs.Process.Working
import Notebook.Proofs.Secrecy
import Notebook.Proofs.Service.Attribution
import Notebook.Proofs.Service.Beats
import Notebook.Proofs.Service.CallRecords
import Notebook.Proofs.Service.CallStories
import Notebook.Proofs.Service.Calls
import Notebook.Proofs.Service.Events
import Notebook.Proofs.Service.Failures
import Notebook.Proofs.Service.Framing
import Notebook.Proofs.Service.Generations
import Notebook.Proofs.Service.Histories
import Notebook.Proofs.Service.Invariants
import Notebook.Proofs.Service.Launches
import Notebook.Proofs.Service.Pauses
import Notebook.Proofs.Service.Reading
import Notebook.Proofs.Service.Records
import Notebook.Proofs.Service.Rounds
import Notebook.Proofs.Service.Staleness
import Notebook.Proofs.Service.Stories
import Notebook.Proofs.Service.Turns
import Notebook.Proofs.Service.Utterances
import Notebook.Proofs.Service.Waiters
import Notebook.Proofs.Session.CodeFiles
import Notebook.Proofs.Session.Copies
import Notebook.Proofs.Session.Edits
import Notebook.Proofs.Session.Keys
import Notebook.Proofs.Session.Statuses
import Notebook.Proofs.Session.WellFormed
import Notebook.Proofs.Shapes
import Notebook.Proofs.Sources
import Notebook.Proofs.Table
import Notebook.Proofs.Text.Boundaries
import Notebook.Proofs.Text.Bytes
import Notebook.Proofs.Text.Decoding
import Notebook.Proofs.Text.Order
import Notebook.Proofs.Text.Trimming
import Notebook.Proofs.Toml.Faces
import Notebook.Proofs.Trees
import Notebook.Schema
import Notebook.Secret
import Notebook.Service.Bridge
import Notebook.Service.Findings
import Notebook.Service.Framing
import Notebook.Service.Protocol
import Notebook.Service.Stage
import Notebook.Session
import Notebook.Session.Files
import Notebook.Settings
import Notebook.Settings.Expansion
import Notebook.Settings.Sections
import Notebook.Shell.Arithmetic
import Notebook.Shell.Command
import Notebook.Shell.Expansion
import Notebook.Shell.Format
import Notebook.Shell.Grammar
import Notebook.Shell.Interpreter
import Notebook.Shell.Lexer
import Notebook.Shell.Pattern
import Notebook.Shell.Regex
import Notebook.Shell.State
import Notebook.Shell.Tool
import Notebook.Table
import Notebook.Text.Blank
import Notebook.Text.Uppercase
import Notebook.Text.Utf8
import Notebook.Toml.Basic
import Notebook.Toml.Reader
import Notebook.Toml.Scalar
import Notebook.Toml.Tree
import Notebook.Unix.Machine
import Notebook.Unix.Program
