import HuntDraw.Blob.Address
import HuntDraw.Blob.Archive
import HuntDraw.Blob.Files
import HuntDraw.Blob.Store
import HuntDraw.Build.Context
import HuntDraw.Build.Stages
import HuntDraw.Command.Arguments
import HuntDraw.Command.Draw
import HuntDraw.Command.Invocation
import HuntDraw.Command.Run
import HuntDraw.Command.Session
import HuntDraw.Command.Stored
import HuntDraw.Csv.Cell
import HuntDraw.Csv.Table
import HuntDraw.Csv.Text
import HuntDraw.Data.Canonical
import HuntDraw.Data.Datum
import HuntDraw.Data.Digest
import HuntDraw.Data.Json
import HuntDraw.Data.JsonRead
import HuntDraw.Data.JsonText
import HuntDraw.Data.RunSort
import HuntDraw.Data.Toml
import HuntDraw.Data.Worded
import HuntDraw.Deflate.Code
import HuntDraw.Deflate.Size
import HuntDraw.Deflate.Token
import HuntDraw.Draw.Applicant
import HuntDraw.Draw.Bucket
import HuntDraw.Draw.Collation
import HuntDraw.Draw.Config
import HuntDraw.Draw.Document
import HuntDraw.Draw.Entry
import HuntDraw.Draw.Fault
import HuntDraw.Draw.HuntCode
import HuntDraw.Draw.Journal
import HuntDraw.Draw.Metrics
import HuntDraw.Draw.Ranking
import HuntDraw.Draw.Run
import HuntDraw.Engine.Clock
import HuntDraw.Engine.Execution
import HuntDraw.Engine.Resource
import HuntDraw.Engine.World
import HuntDraw.Failure.Basic
import HuntDraw.Failure.Stated
import HuntDraw.Graph.Basic
import HuntDraw.Graph.Chain
import HuntDraw.Graph.Compile
import HuntDraw.Graph.Fault
import HuntDraw.Graph.Reference
import HuntDraw.Log.Event
import HuntDraw.Log.Line
import HuntDraw.Log.Message
import HuntDraw.Main
import HuntDraw.Node.Document
import HuntDraw.Node.Draw
import HuntDraw.Node.Export
import HuntDraw.Node.Handler
import HuntDraw.Node.Payload
import HuntDraw.Number.Binary64
import HuntDraw.Number.Decimal
import HuntDraw.Number.Layout
import HuntDraw.Number.Numeral
import HuntDraw.Proofs.Data.Attempt
import HuntDraw.Proofs.Data.Fields
import HuntDraw.Proofs.Data.RunSort
import HuntDraw.Proofs.Draw.Entry
import HuntDraw.Proofs.Draw.Envy
import HuntDraw.Proofs.Draw.Grouping
import HuntDraw.Proofs.Draw.History
import HuntDraw.Proofs.Draw.Ledger
import HuntDraw.Proofs.Draw.OverAward
import HuntDraw.Proofs.Draw.Process
import HuntDraw.Proofs.Draw.Ranking
import HuntDraw.Proofs.Draw.Result
import HuntDraw.Proofs.Draw.Rounds
import HuntDraw.Proofs.Draw.Scan
import HuntDraw.Proofs.Draw.Total
import HuntDraw.Proofs.Draw.Waste
import HuntDraw.Proofs.Number.Order
import HuntDraw.Proofs.Number.Sign
import HuntDraw.Schema.Check
import HuntDraw.Schema.Checked
import HuntDraw.Settings.Basic
import HuntDraw.Settings.Load
import HuntDraw.Settings.VariableFile
import HuntDraw.Settings.Variables
import HuntDraw.Store.Basic
import HuntDraw.Store.Database
import HuntDraw.Store.Rows
import HuntDraw.Store.Snapshot
import HuntDraw.Text.Blank
import HuntDraw.Text.Case
import HuntDraw.Text.CaseTable
import HuntDraw.Text.Digit
import HuntDraw.Text.Order
import HuntDraw.Text.PathName
import HuntDraw.Text.Quoted
import HuntDraw.Text.Stream
import HuntDraw.Text.Utf8
import HuntDraw.Workflow.File
import HuntDraw.Workflow.Import
import HuntDraw.Workflow.Lexicon
import HuntDraw.Workflow.Records
import HuntDraw.Workflow.Vocabulary
import HuntDraw.Yaml.Cursor
import HuntDraw.Yaml.Node
import HuntDraw.Yaml.Scalar
import HuntDraw.Yaml.Token
import HuntDraw.Yaml.Value
import HuntDraw.Proofs.Draw.Rows
import HuntDraw.Proofs.Draw.Document
import HuntDraw.Proofs.Draw.Repeats
import HuntDraw.Proofs.Draw.Pools
import HuntDraw.Proofs.Text.Order
import HuntDraw.Proofs.Draw.Reorder
import HuntDraw.Proofs.Draw.Schedule
import HuntDraw.Proofs.Draw.Series
import HuntDraw.Proofs.Number.Range
import HuntDraw.Proofs.Draw.Sizing
import HuntDraw.Proofs.Engine.Acceptance
import HuntDraw.Proofs.Engine.Chained
import HuntDraw.Proofs.Graph.Skipped
import HuntDraw.Proofs.Graph.Verdict
import HuntDraw.Proofs.Graph.Parameters
import HuntDraw.Proofs.Engine.History
import HuntDraw.Proofs.Node.Thread
import HuntDraw.Proofs.Text.Utf8
import HuntDraw.Proofs.Data.Canonical
import HuntDraw.Proofs.Engine.Along
import HuntDraw.Proofs.Blob.Store
import HuntDraw.Proofs.Node.Documented
import HuntDraw.Proofs.Graph.Definition
import HuntDraw.Proofs.Build.Upheld
import HuntDraw.Proofs.Build.Instances
import HuntDraw.Proofs.Build.Compile
import HuntDraw.Proofs.Build.Register
import HuntDraw.Proofs.Build.Start
import HuntDraw.Proofs.Build.Stages
import HuntDraw.Proofs.Build.Agreement
import HuntDraw.Proofs.Build.Returns
import HuntDraw.Proofs.Build.History
import HuntDraw.Proofs.Build.Isolation
import HuntDraw.Proofs.Build.Failure
import HuntDraw.Proofs.Engine.Failing
import HuntDraw.Proofs.Build.Passing
import HuntDraw.Proofs.Text.Stream
import HuntDraw.Proofs.Csv.Text
import HuntDraw.Proofs.Csv.Table
import HuntDraw.Proofs.Blob.Address
import HuntDraw.Proofs.Draw.Tables
import HuntDraw.Proofs.Node.Draw
import HuntDraw.Proofs.Command.Draw
import HuntDraw.Proofs.Command.Agreement
import HuntDraw.Proofs.Number.Exact
import HuntDraw.Proofs.Number.Decimal
import HuntDraw.Proofs.Text.Blank
import HuntDraw.Proofs.Text.Digit
import HuntDraw.Proofs.Draw.Collation
import HuntDraw.Proofs.Number.Numeral
import HuntDraw.Proofs.Draw.Cell
import HuntDraw.Proofs.Draw.Export
import HuntDraw.Proofs.Data.Written
import HuntDraw.Proofs.Data.Line
import HuntDraw.Proofs.Data.Meaning
import HuntDraw.Proofs.Draw.Config
import HuntDraw.Proofs.Store.Rows
import HuntDraw.Proofs.Store.Calls
import HuntDraw.Proofs.Store.Database
import HuntDraw.Proofs.Store.Registry
import HuntDraw.Proofs.Blob.Interchange
import HuntDraw.Proofs.Build.Triggered
import HuntDraw.Proofs.Workflow.Import
import HuntDraw.Proofs.Draw.Selection
import HuntDraw.Proofs.Draw.Reserve
import HuntDraw.Proofs.Draw.KeptRows
import HuntDraw.Proofs.Number.Quotient
import HuntDraw.Proofs.Draw.Metrics
import HuntDraw.Proofs.Build.Waiting
import HuntDraw.Proofs.Build.Polling
import HuntDraw.Proofs.Build.Rebuild
import HuntDraw.Proofs.Build.Canonical
import HuntDraw.Proofs.Settings.Variables
import HuntDraw.Proofs.Draw.AllowList
import HuntDraw.Proofs.Node.Export
import HuntDraw.Proofs.Graph.Views
