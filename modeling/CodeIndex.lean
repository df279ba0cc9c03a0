import CodeIndex.CommandLine.Command
import CodeIndex.CommandLine.Grammar
import CodeIndex.CommandLine.Markup
import CodeIndex.CommandLine.Run
import CodeIndex.CommandLine.Table
import CodeIndex.CommandLine.Terminal
import CodeIndex.Container
import CodeIndex.Decimal.Binary
import CodeIndex.Decimal.Fixed
import CodeIndex.Decimal.Read
import CodeIndex.Decimal.Shortest
import CodeIndex.Digest.Sha256
import CodeIndex.Entity.Basic
import CodeIndex.Entity.Clauses
import CodeIndex.Entity.OfValue
import CodeIndex.Failure.Basic
import CodeIndex.FileTree.Basic
import CodeIndex.FileTree.ProjectRoot
import CodeIndex.FileTree.Walk
import CodeIndex.FullText.Query
import CodeIndex.FullText.Quote
import CodeIndex.FullText.Rank
import CodeIndex.FullText.Token
import CodeIndex.FullText.TokenTable
import CodeIndex.LineSearch.Basic
import CodeIndex.LineSearch.Heuristics
import CodeIndex.Log.Event
import CodeIndex.Log.Output
import CodeIndex.Main
import CodeIndex.Path
import CodeIndex.Program.Outcome
import CodeIndex.Proofs.Action
import CodeIndex.Proofs.Container
import CodeIndex.Proofs.Decimal.Power
import CodeIndex.Proofs.Entity.Clauses
import CodeIndex.Proofs.Entity.Grouping
import CodeIndex.Proofs.Entity.Identity
import CodeIndex.Proofs.Entity.Normal
import CodeIndex.Proofs.FileTree.Entry
import CodeIndex.Proofs.FileTree.Order
import CodeIndex.Proofs.FileTree.Placing
import CodeIndex.Proofs.FileTree.Walking
import CodeIndex.Proofs.FullText.Phrase
import CodeIndex.Proofs.FullText.Quoted
import CodeIndex.Proofs.FullText.Strings
import CodeIndex.Proofs.FullText.Word
import CodeIndex.Proofs.LineSearch.Definition
import CodeIndex.Proofs.LineSearch.Output
import CodeIndex.Proofs.Path
import CodeIndex.Proofs.Record.Batch
import CodeIndex.Proofs.Record.Document
import CodeIndex.Proofs.Record.Dump
import CodeIndex.Proofs.Record.Framing
import CodeIndex.Proofs.Scheduler.Calling
import CodeIndex.Proofs.Scheduler.Desk
import CodeIndex.Proofs.Scheduler.Draining
import CodeIndex.Proofs.Scheduler.Due
import CodeIndex.Proofs.Scheduler.Exclusion
import CodeIndex.Proofs.Scheduler.Halting
import CodeIndex.Proofs.Scheduler.Hearing
import CodeIndex.Proofs.Scheduler.Holder
import CodeIndex.Proofs.Scheduler.Idleness
import CodeIndex.Proofs.Scheduler.Interleaving
import CodeIndex.Proofs.Scheduler.Joining
import CodeIndex.Proofs.Scheduler.Moves
import CodeIndex.Proofs.Scheduler.Purging
import CodeIndex.Proofs.Scheduler.Quiescence
import CodeIndex.Proofs.Scheduler.Rebuilding
import CodeIndex.Proofs.Scheduler.Remembering
import CodeIndex.Proofs.Scheduler.Reports
import CodeIndex.Proofs.Scheduler.Roles
import CodeIndex.Proofs.Scheduler.Settling
import CodeIndex.Proofs.Scheduler.Silence
import CodeIndex.Proofs.Scheduler.Steady
import CodeIndex.Proofs.Scheduler.Stopping
import CodeIndex.Proofs.Scheduler.Tasks
import CodeIndex.Proofs.Scheduler.Telling
import CodeIndex.Proofs.Scheduler.Tending
import CodeIndex.Proofs.Scheduler.Turns
import CodeIndex.Proofs.Scheduler.Waking
import CodeIndex.Proofs.Scheduler.Wider
import CodeIndex.Proofs.Search.Answer
import CodeIndex.Proofs.Search.Cutting
import CodeIndex.Proofs.Search.Degrading
import CodeIndex.Proofs.Search.Packing
import CodeIndex.Proofs.Search.Ranking
import CodeIndex.Proofs.Search.Widening
import CodeIndex.Proofs.Service.Envelope
import CodeIndex.Proofs.Settings.Ending
import CodeIndex.Proofs.Settings.Idempotence
import CodeIndex.Proofs.Settings.Precedence
import CodeIndex.Proofs.Settings.Setting
import CodeIndex.Proofs.Settings.Sound
import CodeIndex.Proofs.Settings.Sources
import CodeIndex.Proofs.Store.Action
import CodeIndex.Proofs.Store.Capacity
import CodeIndex.Proofs.Store.Catalog
import CodeIndex.Proofs.Store.Change
import CodeIndex.Proofs.Store.Diagnosis
import CodeIndex.Proofs.Store.Files
import CodeIndex.Proofs.Store.Finding
import CodeIndex.Proofs.Store.FreeText
import CodeIndex.Proofs.Store.Freshness
import CodeIndex.Proofs.Store.Lockstep
import CodeIndex.Proofs.Store.Neighbors
import CodeIndex.Proofs.Store.Pausing
import CodeIndex.Proofs.Store.Reading
import CodeIndex.Proofs.Store.Refresh
import CodeIndex.Proofs.Store.Renewal
import CodeIndex.Proofs.Store.Retrying
import CodeIndex.Proofs.Store.Rollback
import CodeIndex.Proofs.Store.Staging
import CodeIndex.Proofs.Store.Statements
import CodeIndex.Proofs.Store.Stored
import CodeIndex.Proofs.Store.Success
import CodeIndex.Proofs.Store.TemplateSearch
import CodeIndex.Proofs.Store.WordSearch
import CodeIndex.Proofs.Template.Grammar
import CodeIndex.Proofs.Template.Uses
import CodeIndex.Proofs.Text.Distinct
import CodeIndex.Proofs.Text.Lines
import CodeIndex.Proofs.Text.Places
import CodeIndex.Proofs.Validation.Checked
import CodeIndex.Proofs.Value.Grammar
import CodeIndex.Proofs.Value.Limits
import CodeIndex.Proofs.Value.Merging
import CodeIndex.Proofs.Value.Overriding
import CodeIndex.Proofs.Value.Refusal
import CodeIndex.Proofs.Value.Spelling
import CodeIndex.Proofs.Value.Writing
import CodeIndex.Proofs.Workspace.Action
import CodeIndex.Proofs.Workspace.Extraction
import CodeIndex.Proofs.Workspace.Keying
import CodeIndex.Proofs.Workspace.Rescan
import CodeIndex.Proofs.Workspace.Watching
import CodeIndex.Record.Batch
import CodeIndex.Scheduler.Basic
import CodeIndex.Scheduler.Clock
import CodeIndex.Scheduler.Machine
import CodeIndex.Scheduler.Rehearsal
import CodeIndex.Scheduler.Task
import CodeIndex.Search.Pack
import CodeIndex.Search.Result
import CodeIndex.Service.Basic
import CodeIndex.Service.Call
import CodeIndex.Service.Http
import CodeIndex.Settings.Basic
import CodeIndex.Settings.Environment
import CodeIndex.Settings.Load
import CodeIndex.Settings.OfValue
import CodeIndex.Store.Basic
import CodeIndex.Store.Disk
import CodeIndex.Store.Lock
import CodeIndex.Store.Saved
import CodeIndex.Store.Statement
import CodeIndex.Store.Tables
import CodeIndex.Template.Basic
import CodeIndex.Template.Scan
import CodeIndex.Text.Base64
import CodeIndex.Text.Blank
import CodeIndex.Text.Case
import CodeIndex.Text.CaseTable
import CodeIndex.Text.Columns
import CodeIndex.Text.Digit
import CodeIndex.Text.Lines
import CodeIndex.Text.Pieces
import CodeIndex.Text.PrintableTable
import CodeIndex.Text.Quoted
import CodeIndex.Text.Ranges
import CodeIndex.Text.Similar
import CodeIndex.Text.Utf8
import CodeIndex.Text.Word
import CodeIndex.Text.WordTable
import CodeIndex.Tool.Basic
import CodeIndex.Tool.Envelope
import CodeIndex.Tool.Error
import CodeIndex.Tool.Registry
import CodeIndex.Tool.Request
import CodeIndex.Tool.Summary
import CodeIndex.Validation.Fault
import CodeIndex.Validation.Scalar
import CodeIndex.Value.Basic
import CodeIndex.Value.Json
import CodeIndex.Value.JsonReader
import CodeIndex.Value.Merge
import CodeIndex.Value.Shown
import CodeIndex.Watch.Change
import CodeIndex.Watch.Filter
import CodeIndex.Watch.Mount
import CodeIndex.Workspace.Basic
import CodeIndex.Workspace.Extraction
import CodeIndex.Workspace.Search
import CodeIndex.Yaml.Cursor
import CodeIndex.Yaml.Document
import CodeIndex.Yaml.Node
import CodeIndex.Yaml.Reader
import CodeIndex.Yaml.Scalar
import CodeIndex.Yaml.ScalarText
import CodeIndex.Yaml.Token
