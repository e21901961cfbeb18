import Scheduling.Text.Pieces
import Scheduling.Text.Quoted
import Scheduling.Decimal.Whole
import Scheduling.SortedSet
import Scheduling.Uuid
import Scheduling.Ident
import Scheduling.Status
import Scheduling.Calendar
import Scheduling.Duration
import Scheduling.Task
import Scheduling.Placement.Veto
import Scheduling.Placement.Aggregate
import Scheduling.Placement.Verdict
import Scheduling.Backoff
import Scheduling.Settings
import Scheduling.Config
import Scheduling.Store.Basic
import Scheduling.Store.Recording
import Scheduling.Penalty
import Scheduling.Sample
import Scheduling.Decimal.Shortest
import Scheduling.Json.Tree
import Scheduling.Json.Token
import Scheduling.Json.Reading
import Scheduling.Json.Compact
import Scheduling.Wire.Layout
import Scheduling.Wire.Placement
import Scheduling.Wire.Task
import Scheduling.Wire.Config
import Scheduling.Proofs.Checks
import Scheduling.Proofs.Penalty.Ancestry
import Scheduling.Proofs.Penalty.Observed
import Scheduling.Proofs.Penalty.Reference
import Scheduling.Proofs.Penalty.Orbit
import Scheduling.Proofs.Settings.Construction
import Scheduling.Proofs.Settings.Doubling
import Scheduling.Proofs.Penalty.Configured
import Scheduling.Proofs.Placement.Instances
import Scheduling.Proofs.Placement.Limit
import Scheduling.Proofs.Placement.Greedy
import Scheduling.Proofs.Penalty.Plain
import Scheduling.Proofs.Penalty.Comparison
import Scheduling.Proofs.Penalty.Pruning
import Scheduling.Proofs.Placement.Evaluation
import Scheduling.Proofs.Json.Numerals
import Scheduling.Proofs.Json.Tokens
import Scheduling.Proofs.Json.Documents
import Scheduling.Proofs.Wire.Codecs
import Scheduling.Proofs.Wire.Layouts
import Scheduling.Proofs.Wire.Documents
import Scheduling.Proofs.Wire.Forms
import Scheduling.Proofs.Wire.Presentations
import Scheduling.Proofs.Store.History
import Scheduling.Proofs.Penalty.Turns
import Scheduling.Proofs.Penalty.Locality
import Scheduling.Proofs.Penalty.Strictness
import Scheduling.Proofs.Ident.JobText
import Scheduling.Proofs.Ident.JobFaults
import Scheduling.Proofs.Ident.Hexadecimal
import Scheduling.Proofs.Penalty.Lifetime
import Scheduling.Proofs.Penalty.Cost
import Scheduling.Proofs.Wire.Parts
import Scheduling.Proofs.Wire.Names
import Scheduling.Proofs.Decimal.Denotation
import Scheduling.Proofs.Settings.Environment
import Scheduling.Proofs.Settings.Acceptance
import Scheduling.Proofs.Settings.Documents
import Scheduling.Proofs.Task.Validation
import Scheduling.Proofs.Store.Recording
import Scheduling.Proofs.Placement.Additivity
import Scheduling.Proofs.Placement.Monotonicity
import Scheduling.Proofs.Placement.ValueSets
import Scheduling.Proofs.Task.Revisions
import Scheduling.Proofs.Settings.Interruptions
import Scheduling.Proofs.Penalty.Convergence
