import SimWorkbench.Build.Collection
import SimWorkbench.Build.Compiler
import SimWorkbench.Build.Failure
import SimWorkbench.Build.Generator
import SimWorkbench.Build.Invocation
import SimWorkbench.Build.Layout
import SimWorkbench.Build.Naming
import SimWorkbench.Build.Pipeline
import SimWorkbench.Build.Rehearsal
import SimWorkbench.Bytes
import SimWorkbench.Cache.Basic
import SimWorkbench.Cache.Fingerprint
import SimWorkbench.Cache.Index
import SimWorkbench.Cache.Record
import SimWorkbench.CommandLine.Basic
import SimWorkbench.CommandLine.Help
import SimWorkbench.CommandLine.Reader
import SimWorkbench.Context.Arena
import SimWorkbench.Context.Basic
import SimWorkbench.Context.Call
import SimWorkbench.Context.Naming
import SimWorkbench.Control.Controller
import SimWorkbench.Control.Schedule
import SimWorkbench.Control.Transport
import SimWorkbench.Decimal.Binary64
import SimWorkbench.Decimal.Literal
import SimWorkbench.Decimal.Places
import SimWorkbench.Decimal.Shortest
import SimWorkbench.Digest.Sha256
import SimWorkbench.FileTree.Basic
import SimWorkbench.FileTree.Effect
import SimWorkbench.FileTree.ModeChange
import SimWorkbench.FileTree.Operations
import SimWorkbench.FileTree.OsError
import SimWorkbench.Json.Basic
import SimWorkbench.Json.Reader
import SimWorkbench.Keyed
import SimWorkbench.Main
import SimWorkbench.Path.Basic
import SimWorkbench.Process.Basic
import SimWorkbench.Process.Image
import SimWorkbench.Process.Program
import SimWorkbench.Project.Basic
import SimWorkbench.Project.Settings
import SimWorkbench.Project.Workplace
import SimWorkbench.Proofs.Build.Answers
import SimWorkbench.Proofs.Build.Cached
import SimWorkbench.Proofs.Build.Calls
import SimWorkbench.Proofs.Build.Collecting
import SimWorkbench.Proofs.Build.Concurrent
import SimWorkbench.Proofs.Build.Confined
import SimWorkbench.Proofs.Build.Conflict
import SimWorkbench.Proofs.Build.Drawn
import SimWorkbench.Proofs.Build.Failing
import SimWorkbench.Proofs.Build.Filed
import SimWorkbench.Proofs.Build.History
import SimWorkbench.Proofs.Build.Invocation
import SimWorkbench.Proofs.Build.Missed
import SimWorkbench.Proofs.Build.Neighbours
import SimWorkbench.Proofs.Build.Ownership
import SimWorkbench.Proofs.Build.Period
import SimWorkbench.Proofs.Build.Provenance
import SimWorkbench.Proofs.Build.Reach
import SimWorkbench.Proofs.Build.Rehearsal
import SimWorkbench.Proofs.Build.Rejected
import SimWorkbench.Proofs.Build.Requests
import SimWorkbench.Proofs.Build.Settled
import SimWorkbench.Proofs.Build.Spurned
import SimWorkbench.Proofs.Build.Stages
import SimWorkbench.Proofs.Build.Toolchain
import SimWorkbench.Proofs.Build.Trial
import SimWorkbench.Proofs.Build.Verdict
import SimWorkbench.Proofs.Cache.Agreement
import SimWorkbench.Proofs.Cache.Change
import SimWorkbench.Proofs.Cache.Crash
import SimWorkbench.Proofs.Cache.Fingerprint
import SimWorkbench.Proofs.Cache.IndexDocument
import SimWorkbench.Proofs.Cache.Law
import SimWorkbench.Proofs.Cache.Ledger
import SimWorkbench.Proofs.Cache.Opening
import SimWorkbench.Proofs.Cache.Outcome
import SimWorkbench.Proofs.Cache.Persistence
import SimWorkbench.Proofs.Cache.Saving
import SimWorkbench.Proofs.Cache.Schema
import SimWorkbench.Proofs.Cache.Sessions
import SimWorkbench.Proofs.Cache.Staleness
import SimWorkbench.Proofs.Context.Account
import SimWorkbench.Proofs.Context.Confinement
import SimWorkbench.Proofs.Context.Current
import SimWorkbench.Proofs.Context.Forest
import SimWorkbench.Proofs.Context.Furnishing
import SimWorkbench.Proofs.Context.Isolation
import SimWorkbench.Proofs.Context.Lodging
import SimWorkbench.Proofs.Context.Snapshot
import SimWorkbench.Proofs.Context.Sweeping
import SimWorkbench.Proofs.Context.Visibility
import SimWorkbench.Proofs.Control.Accounting
import SimWorkbench.Proofs.Control.Activity
import SimWorkbench.Proofs.Control.Admission
import SimWorkbench.Proofs.Control.Alone
import SimWorkbench.Proofs.Control.Delivery
import SimWorkbench.Proofs.Control.Events
import SimWorkbench.Proofs.Control.Launching
import SimWorkbench.Proofs.Control.Numbering
import SimWorkbench.Proofs.Control.Preparing
import SimWorkbench.Proofs.Control.Repeating
import SimWorkbench.Proofs.Control.Reports
import SimWorkbench.Proofs.Control.Sessions
import SimWorkbench.Proofs.Control.Stopping
import SimWorkbench.Proofs.Control.Supplying
import SimWorkbench.Proofs.Control.Teardown
import SimWorkbench.Proofs.FileTree.Change
import SimWorkbench.Proofs.FileTree.Clearing
import SimWorkbench.Proofs.FileTree.Effect
import SimWorkbench.Proofs.FileTree.Listing
import SimWorkbench.Proofs.FileTree.Parent
import SimWorkbench.Proofs.FileTree.Removal
import SimWorkbench.Proofs.FileTree.Walk
import SimWorkbench.Proofs.Json.Reading
import SimWorkbench.Proofs.Keyed
import SimWorkbench.Proofs.Path.Absolute
import SimWorkbench.Proofs.Path.Below
import SimWorkbench.Proofs.Path.Length
import SimWorkbench.Proofs.Path.Spelling
import SimWorkbench.Proofs.Project.Libraries
import SimWorkbench.Proofs.Run.Conduct
import SimWorkbench.Proofs.Run.Hearing
import SimWorkbench.Proofs.Run.LineFormat
import SimWorkbench.Proofs.Run.Signals
import SimWorkbench.Proofs.Run.Tail
import SimWorkbench.Proofs.Run.Transcript
import SimWorkbench.Proofs.Run.Unasked
import SimWorkbench.Proofs.Source.Grammar
import SimWorkbench.Proofs.Text.Cutting
import SimWorkbench.Proofs.Text.Fields
import SimWorkbench.Proofs.Text.Lines
import SimWorkbench.Proofs.Text.Utf8
import SimWorkbench.Regex.Basic
import SimWorkbench.Regex.Match
import SimWorkbench.Regex.Reader
import SimWorkbench.Run.Artifact
import SimWorkbench.Run.Command
import SimWorkbench.Run.Event
import SimWorkbench.Run.Fault
import SimWorkbench.Run.Heard
import SimWorkbench.Run.Host
import SimWorkbench.Run.Output
import SimWorkbench.Run.ProcessArtifact
import SimWorkbench.Run.Property
import SimWorkbench.Run.Rehearsal
import SimWorkbench.Run.Signal
import SimWorkbench.Run.Tail
import SimWorkbench.Shell.Arithmetic
import SimWorkbench.Shell.Builtin
import SimWorkbench.Shell.Condition
import SimWorkbench.Shell.Directory
import SimWorkbench.Shell.Expansion
import SimWorkbench.Shell.Field
import SimWorkbench.Shell.Format
import SimWorkbench.Shell.Grammar
import SimWorkbench.Shell.Input
import SimWorkbench.Shell.Interpreter
import SimWorkbench.Shell.Job
import SimWorkbench.Shell.Lookup
import SimWorkbench.Shell.Machine
import SimWorkbench.Shell.Number
import SimWorkbench.Shell.Options
import SimWorkbench.Shell.Parameters
import SimWorkbench.Shell.Pattern
import SimWorkbench.Shell.Quoted
import SimWorkbench.Shell.Redirection
import SimWorkbench.Shell.Script
import SimWorkbench.Shell.Setting
import SimWorkbench.Shell.Signal
import SimWorkbench.Shell.State
import SimWorkbench.Shell.Syntax
import SimWorkbench.Shell.Token
import SimWorkbench.Shell.Tool
import SimWorkbench.Source.Diagnostic
import SimWorkbench.Source.Unit
import SimWorkbench.Text.Blank
import SimWorkbench.Text.Lines
import SimWorkbench.Text.Utf8
import SimWorkbench.Toml.Basic
import SimWorkbench.Toml.Reader
import SimWorkbench.Toml.Scalar
import SimWorkbench.Toml.Section
import SimWorkbench.Tool.Basic
import SimWorkbench.Tool.Console
import SimWorkbench.Tool.Run
import SimWorkbench.Tool.Upkeep
import SimWorkbench.Tool.Work
import SimWorkbench.Utility.Concatenate
import SimWorkbench.Utility.Copy
import SimWorkbench.Utility.Name
import SimWorkbench.Utility.Options
import SimWorkbench.Utility.Permission
import SimWorkbench.Utility.Search
import SimWorkbench.Utility.Selection
