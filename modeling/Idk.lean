import Idk.Base
import Idk.Text
import Idk.Logic.Transition
import Idk.Logic.Procedure
import Idk.Logic.SharedExclusive
import Idk.Gate.SourceGate
import Idk.Gate.Custody
import Idk.Run.Records
import Idk.Run.Ledger
import Idk.Run.Registry
import Idk.Run.Operations
import Idk.Run.Encoding
import Idk.Run.ResultStore
import Idk.Run.Producer
import Idk.Run.World
import Idk.Protocol.Envelope
import Idk.Host.Respond
import Idk.Verified.GateSafety
import Idk.Verified.Run.Snapshot
import Idk.Verified.Run.Effects
import Idk.Verified.Run.Durability
import Idk.Verified.Run.LeaseCustody
import Idk.Verified.Run.Calls
import Idk.Verified.Run.Lives
import Idk.Verified.Run.LeaseRetention
import Idk.Verified.Run.CrashSafety
import Idk.Verified.Run.Capacity
import Idk.Verified.Host.AtMostOnce
import Idk.Logic.Interleaving
import Idk.Logic.Replacement
import Idk.Config.Store
import Idk.Verified.Config.SaveChain
import Idk.Config.Declaration
import Idk.Verified.Config.DeclarationChain
import Idk.Install.State
import Idk.Install.Installer
import Idk.Verified.Install.Floor
import Idk.Verified.Install.Recovery
import Idk.Git.Operation
import Idk.Git.Bridge
import Idk.Git.Tick
import Idk.Git.World
import Idk.Verified.Git.Operation
import Idk.Verified.Git.SingleFlight
import Idk.Git.Lives
import Idk.Verified.Git.Docket
import Idk.Verified.Git.Threads
import Idk.Verified.Git.Alignment
import Idk.Model.Project
import Idk.Model.Rebind
import Idk.Verified.Model.Rebind
import Idk.Verified.Run.Exclusion
import Idk.Verified.Run.Reports
import Idk.Git.Encoding
import Idk.Host.Ledger
import Idk.Verified.StateFile
import Idk.Host.Actor
import Idk.Host.Requests
import Idk.Verified.Run.Memory
import Idk.Verified.Git.Refusal
import Idk.Run.Comparison
import Idk.Verified.Run.Comparison
import Idk.Run.OutputSink
import Idk.Verified.Run.OutputSink
import Idk.Run.LogPaging
import Idk.Verified.Run.LogPaging
import Idk.Model.Editor
import Idk.Model.Quoting
import Idk.Verified.Model.Editor
import Idk.Host.Screen
import Idk.Verified.Host.Screen
import Idk.Host.Events
import Idk.Host.World
import Idk.Verified.Host.Change
import Idk.Verified.Host.Sessions
import Idk.Verified.Host.Ground
import Idk.Verified.Host.Moves
import Idk.Host.Ingress
import Idk.Host.PendingInput
import Idk.Verified.Host.Ingress
import Idk.Verified.Host.PendingInput
import Idk.Verified.Run.EventStream
import Idk.Run.ResultViews
import Idk.Verified.Run.ComparisonPartition
import Idk.Verified.Run.ResultViews
import Idk.Logic.Paging
import Idk.Verified.Run.ResultPaging
import Idk.Verified.Run.Diagnostics
import Idk.Logic.ControlSequences
import Idk.Verified.Run.ProblemIdentity
import Idk.Verified.Run.ProblemLines
import Idk.Git.Parse
import Idk.Logic.Terminated
import Idk.Verified.Git.Texts
import Idk.Verified.Git.Porcelain
import Idk.Verified.Host.Asked
import Idk.Verified.Model.EditorArguments
import Idk.Verified.Model.Quoting
import Idk.Git.Remote
import Idk.Package.Elf
import Idk.Verified.Git.Remote
import Idk.Logic.ByteIndex
import Idk.Ui.CommitDraft
import Idk.Verified.Package.Elf
import Idk.Protocol.Frames
import Idk.Verified.Ui.CommitDraft
import Idk.Package.Bundle
import Idk.Verified.Protocol.Frames
import Idk.Host.Search
import Idk.Logic.Neighbours
import Idk.Verified.Package.Bundle
import Idk.Host.Inventory
import Idk.Verified.Host.Search
import Idk.Verified.Host.Inventory
import Idk.Logic.Utf8
import Idk.Logic.Windows
import Idk.Ui.LogView
import Idk.Verified.Ui.LogView
import Idk.Logic.Frames
import Idk.Verified.Host.Beside
import Idk.Verified.Host.Defaults
import Idk.Verified.Host.Batches
import Idk.Verified.Host.Histories
import Idk.Verified.Host.StatFields
import Idk.Logic.Framed
import Idk.Logic.JsonReading
import Idk.Model.Digests
import Idk.Verified.Model.Digests
import Idk.Verified.Host.Hearing
import Idk.Verified.Host.Ticks
import Idk.Verified.Host.Workers
import Idk.Verified.Host.Restored
import Idk.Verified.Host.Lives
import Idk.Verified.Host.Closing
import Idk.Verified.Host.Recorded
import Idk.Verified.Host.Retiring
import Idk.Verified.Host.Ended
import Idk.Verified.Host.Signals
import Idk.Verified.Host.Grants
