import Muster.Address
import Muster.Client
import Muster.Clusnode
import Muster.CommandLine.Command
import Muster.CommandLine.Options
import Muster.CommandLine.Program
import Muster.CommandLine.Report
import Muster.ConfigFile
import Muster.Dispatch.Relay
import Muster.Dispatch.Resolve
import Muster.Dispatch.Run
import Muster.Execution
import Muster.Fault
import Muster.Files
import Muster.Frame
import Muster.Groups
import Muster.Headnode
import Muster.Job.Basic
import Muster.Job.Document
import Muster.Job.Selection
import Muster.Job.Sweep
import Muster.Json.Basic
import Muster.Json.Reader
import Muster.Json.Real
import Muster.Json.Stored
import Muster.Json.Writer
import Muster.Liveness
import Muster.Main
import Muster.Node
import Muster.NodeConfig
import Muster.Pattern.Basic
import Muster.Pattern.Engine
import Muster.Pattern.Matching
import Muster.Pattern.Property
import Muster.Pattern.Reader
import Muster.Proofs.Answering
import Muster.Proofs.Calendar
import Muster.Proofs.Calls
import Muster.Proofs.Capital
import Muster.Proofs.Cluster
import Muster.Proofs.Confirming
import Muster.Proofs.Course
import Muster.Proofs.Cutting
import Muster.Proofs.Decimal
import Muster.Proofs.Delivery
import Muster.Proofs.DisplayName
import Muster.Proofs.Document
import Muster.Proofs.Doubling
import Muster.Proofs.Encoding
import Muster.Proofs.Executing
import Muster.Proofs.Failing
import Muster.Proofs.Filtering
import Muster.Proofs.Hearing
import Muster.Proofs.Honest
import Muster.Proofs.HostEntries
import Muster.Proofs.Identity
import Muster.Proofs.JobList
import Muster.Proofs.Leftovers
import Muster.Proofs.Listing
import Muster.Proofs.Membership
import Muster.Proofs.Mirroring
import Muster.Proofs.Moves
import Muster.Proofs.Naming
import Muster.Proofs.Numbering
import Muster.Proofs.Numerals
import Muster.Proofs.Opening
import Muster.Proofs.Operations
import Muster.Proofs.Orphans
import Muster.Proofs.Outcome
import Muster.Proofs.OutputFiles
import Muster.Proofs.Overtaking
import Muster.Proofs.Picking
import Muster.Proofs.Places
import Muster.Proofs.Playing
import Muster.Proofs.Record
import Muster.Proofs.Relaying
import Muster.Proofs.Requests
import Muster.Proofs.Rereading
import Muster.Proofs.Rerun
import Muster.Proofs.Restarting
import Muster.Proofs.Retaining
import Muster.Proofs.Room
import Muster.Proofs.SavedSettings
import Muster.Proofs.Schedule
import Muster.Proofs.Selection
import Muster.Proofs.Sending
import Muster.Proofs.Serving
import Muster.Proofs.Shown
import Muster.Proofs.Sorted
import Muster.Proofs.Stopping
import Muster.Proofs.Storing
import Muster.Proofs.Streaming
import Muster.Proofs.Targets
import Muster.Proofs.TimeText
import Muster.Proofs.Tree
import Muster.Proofs.Trimming
import Muster.Proofs.Turns
import Muster.Proofs.Validation
import Muster.Proofs.Values
import Muster.Proofs.Verdict
import Muster.Proofs.Watch
import Muster.Proofs.Wire
import Muster.Reporter
import Muster.Settings
import Muster.Shell.Arithmetic
import Muster.Shell.Builtin
import Muster.Shell.Fields
import Muster.Shell.Reader
import Muster.Shell.Run
import Muster.Shell.Script
import Muster.Shell.Tools
import Muster.Shell.World
import Muster.Sorted
import Muster.Store
import Muster.Text.Blank
import Muster.Text.Category
import Muster.Text.CategoryTable
import Muster.Text.Decimal
import Muster.Text.Fold
import Muster.Text.FoldTable
import Muster.Text.Quoted
import Muster.Text.Script
import Muster.Text.ScriptTable
import Muster.Text.Split
import Muster.Text.Upper
import Muster.Text.UpperTable
import Muster.Text.Utf8
import Muster.Time
import Muster.Width
import Muster.Workbench
import Muster.Proofs.Spelling
import Muster.Proofs.Walks
import Muster.Proofs.Links
import Muster.Proofs.Replied
import Muster.Proofs.SettingTables
import Muster.Proofs.Configuring
import Muster.Proofs.Frames
import Muster.Proofs.Ending
import Muster.Proofs.Printing
import Muster.Proofs.Endpoints
import Muster.Proofs.Labels
