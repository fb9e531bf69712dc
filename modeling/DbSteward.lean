import DbSteward.Binary64.Basic
import DbSteward.Binary64.Shortest
import DbSteward.Change.Changes
import DbSteward.Change.Overrides
import DbSteward.Change.Path
import DbSteward.Change.Tag
import DbSteward.Change.Value
import DbSteward.Document.Annotation
import DbSteward.Document.Basic
import DbSteward.Document.Cluster
import DbSteward.Document.Codec
import DbSteward.Document.Condition
import DbSteward.Document.Instance
import DbSteward.Document.Kind
import DbSteward.Document.Satellite
import DbSteward.Document.Schema
import DbSteward.Document.Secret
import DbSteward.Failure
import DbSteward.Gate.Decision
import DbSteward.Gate.Phase
import DbSteward.Json.Basic
import DbSteward.Json.Members
import DbSteward.Json.Number
import DbSteward.Json.Printer
import DbSteward.Json.Reader
import DbSteward.Main
import DbSteward.Moment.Basic
import DbSteward.Moment.Printer
import DbSteward.Moment.Reader
import DbSteward.Pass.Basic
import DbSteward.Pass.Deletion
import DbSteward.Pass.Listing
import DbSteward.Pass.Modification
import DbSteward.Pass.Overrides
import DbSteward.Pass.Replication
import DbSteward.Pass.Settle
import DbSteward.Pass.Tags
import DbSteward.Pass.Traits
import DbSteward.Pass.Update
import DbSteward.Plan.Basic
import DbSteward.Plan.Normal
import DbSteward.Plan.Version
import DbSteward.Planner
import DbSteward.Scope
import DbSteward.Service.Basic
import DbSteward.Service.Call
import DbSteward.Service.Memory
import DbSteward.Service.Parameter
import DbSteward.Service.Printer
import DbSteward.Service.Request
import DbSteward.Settings
import DbSteward.Table
import DbSteward.Text.Blank
import DbSteward.Text.Numeral
import DbSteward.Text.Parts
import DbSteward.Word
import DbSteward.Proofs.Table
import DbSteward.Proofs.Text
import DbSteward.Proofs.Value
import DbSteward.Proofs.Changes
import DbSteward.Proofs.Pairing
import DbSteward.Proofs.Mismatch
import DbSteward.Proofs.Comparison
import DbSteward.Proofs.Agreement
import DbSteward.Proofs.Trace
import DbSteward.Proofs.Gate
import DbSteward.Proofs.Request
import DbSteward.Proofs.Update
import DbSteward.Proofs.Fidelity
import DbSteward.Proofs.Blank
import DbSteward.Proofs.Tag
import DbSteward.Proofs.Effect
import DbSteward.Proofs.Channel
import DbSteward.Proofs.Closing
import DbSteward.Proofs.Dialogue
import DbSteward.Proofs.Order
import DbSteward.Proofs.Report
import DbSteward.Proofs.Interruption
import DbSteward.Proofs.Tagging
import DbSteward.Proofs.Memory
import DbSteward.Proofs.Reading
import DbSteward.Proofs.Overrides
import DbSteward.Proofs.Resumption
import DbSteward.Proofs.OverrideCalls
import DbSteward.Proofs.Condition
import DbSteward.Proofs.Ending
import DbSteward.Proofs.Transition
import DbSteward.Proofs.Abandonment
import DbSteward.Proofs.Storage
import DbSteward.Proofs.Synced
import DbSteward.Proofs.Verdict
import DbSteward.Proofs.Lookup
import DbSteward.Proofs.Secret
import DbSteward.Proofs.Vouching
import DbSteward.Proofs.Membership
import DbSteward.Proofs.Provenance
import DbSteward.Proofs.Recording
import DbSteward.Proofs.Replication
import DbSteward.Proofs.Activation
import DbSteward.Proofs.Calendar
import DbSteward.Proofs.Numeral
import DbSteward.Proofs.MomentText
import DbSteward.Proofs.Rounding
import DbSteward.Proofs.Naming
import DbSteward.Proofs.Codec
import DbSteward.Proofs.RoundTrip
import DbSteward.Proofs.Literal
import DbSteward.Proofs.JsonText
import DbSteward.Proofs.Bounded
import DbSteward.Proofs.DocumentText
import DbSteward.Proofs.Place
import DbSteward.Proofs.Patch
import DbSteward.Proofs.Version
import DbSteward.Proofs.Canonical
import DbSteward.Proofs.LogExports
import DbSteward.Proofs.Partition
import DbSteward.Proofs.Annotation
import DbSteward.Proofs.Deletion
import DbSteward.Proofs.Paging
import DbSteward.Proofs.Coverage
import DbSteward.Proofs.Backoff
import DbSteward.Proofs.Setting
import DbSteward.Proofs.ConditionHistory
import DbSteward.Proofs.Batch
import DbSteward.Proofs.Insertion
