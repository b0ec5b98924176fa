import FeatureRun.Feature.File
import FeatureRun.Feature.Locate
import FeatureRun.Main
import FeatureRun.Tools
import FeatureRun.Proofs.Feature.Grammar
import FeatureRun.Proofs.NodeId
import FeatureRun.Proofs.Catalog.Node
import FeatureRun.Proofs.OrderedMap
import FeatureRun.Proofs.Catalog.Selection
import FeatureRun.Proofs.Catalog.Cover
import FeatureRun.Proofs.Outcome.Cause
import FeatureRun.Proofs.Json.RoundTrip
import FeatureRun.Proofs.Outcome.RollUp
import FeatureRun.Proofs.Store
import FeatureRun.Proofs.Run.Picked
import FeatureRun.Proofs.Action
import FeatureRun.Proofs.Run.Reconcile
import FeatureRun.Proofs.Run.Effect
import FeatureRun.Proofs.Path
import FeatureRun.Proofs.Text.LowerCase
import FeatureRun.Proofs.Report.Place
import FeatureRun.Proofs.Catalog.Update
import FeatureRun.Proofs.Discovery
import FeatureRun.Proofs.Watch.Filter
import FeatureRun.Proofs.Watch.Round
import FeatureRun.Proofs.Workspace.Files
import FeatureRun.Proofs.Watch.Run
import FeatureRun.Proofs.Workspace.Opening
import FeatureRun.Proofs.Feature.Locate
import FeatureRun.Proofs.Catalog.Target
import FeatureRun.Proofs.Text.Utf8
import FeatureRun.Proofs.Workspace.Target
import FeatureRun.Proofs.Json.Arrays
import FeatureRun.Proofs.Report.Await
import FeatureRun.Proofs.Report.Spelling
import FeatureRun.Proofs.Run.Course
import FeatureRun.Proofs.Run.FailClosed
import FeatureRun.Proofs.Run.Ending
import FeatureRun.Proofs.Outcome.Verdict
import FeatureRun.Proofs.Catalog.Tree
import FeatureRun.Proofs.Run.Spanned
import FeatureRun.Proofs.Store.Refine
import FeatureRun.Proofs.Outcome.Lines
import FeatureRun.Proofs.Outcome.Statuses
import FeatureRun.Proofs.Outcome.Failures
import FeatureRun.Proofs.Run.Upward
import FeatureRun.Proofs.Feature.Leaves
import FeatureRun.Proofs.Run.Tests
import FeatureRun.Proofs.Run.Agree
import FeatureRun.Proofs.Run.Sound
import FeatureRun.Proofs.Workspace.Stored
import FeatureRun.Proofs.Run.Faults
import FeatureRun.Proofs.Run.Readable
import FeatureRun.Proofs.Workspace.Session
import FeatureRun.Proofs.Workspace.Everything
import FeatureRun.Proofs.Console
import FeatureRun.Proofs.Tools
import FeatureRun.Proofs.Feature.Indent
import FeatureRun.Proofs.Feature.Growth
import FeatureRun.Proofs.Feature.Block
import FeatureRun.Proofs.Catalog.Growth
import FeatureRun.Proofs.Watch.History
import FeatureRun.Proofs.Watch.Batch
import FeatureRun.Proofs.Run.Cancelled
import FeatureRun.Proofs.Run.Atomic
import FeatureRun.Proofs.Feature.Tree
import FeatureRun.Proofs.Catalog.Traversal
import FeatureRun.Proofs.Disk.Proper
import FeatureRun.Proofs.Disk.Unlink
import FeatureRun.Proofs.Run.Frame
import FeatureRun.Proofs.Run.CleanUp
import FeatureRun.Proofs.Workspace.Discovered
import FeatureRun.Proofs.Workspace.Count
import FeatureRun.Proofs.Decimal.NonNegative
import FeatureRun.Proofs.Settings
import FeatureRun.Proofs.Outcome.Groups
import FeatureRun.Proofs.Runner.Glue
