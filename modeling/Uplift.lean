import Uplift.Main
import Uplift.Analysis.Pool
import Uplift.Files.Memory
import Uplift.Proofs.Analysis.AnyOrder
import Uplift.Proofs.Analysis.OnePass
import Uplift.Proofs.CommandLine.DryRun
import Uplift.Proofs.Files.Contents
import Uplift.Proofs.Files.Saving
import Uplift.Proofs.Pattern.Placement
import Uplift.Proofs.Regex.Reach
import Uplift.Proofs.Run.Atomicity
import Uplift.Proofs.Run.Backup
import Uplift.Proofs.Run.Calls
import Uplift.Proofs.Run.CodeSteps
import Uplift.Proofs.Run.Completion
import Uplift.Proofs.Run.DryRun
import Uplift.Proofs.Run.Ending
import Uplift.Proofs.Run.Phases
import Uplift.Proofs.Run.Records
import Uplift.Proofs.Run.Restoration
import Uplift.Proofs.Undo
import Uplift.Proofs.Engine.Operations
import Uplift.Proofs.Engine.Rollback
import Uplift.Proofs.Run.Planned
import Uplift.Proofs.Run.Trials
import Uplift.Proofs.Run.Bookkeeping
import Uplift.Proofs.Run.Purity
import Uplift.Proofs.Engine.Rerun
import Uplift.Proofs.Files.Order
import Uplift.Proofs.Plan.Chain
import Uplift.Proofs.Run.Prediction
import Uplift.Proofs.Engine.Results
import Uplift.Proofs.Files.Writing
import Uplift.Proofs.Run.Validation
import Uplift.Proofs.Files.Placement
import Uplift.Proofs.Plan.Backups
import Uplift.Proofs.Run.Copies
import Uplift.Proofs.Files.Descent
import Uplift.Proofs.Run.DiskBackup
import Uplift.Proofs.Plan.Identity
import Uplift.Proofs.Engine.Planning
import Uplift.Proofs.Plan.Verdicts
import Uplift.Proofs.Analysis.Turns
import Uplift.Proofs.Plan.Shape
import Uplift.Proofs.Pattern.Catalog
import Uplift.Proofs.Plan.Assessment
import Uplift.Proofs.Run.Packages
import Uplift.Proofs.Files.History
import Uplift.Proofs.Unwinding
import Uplift.Proofs.Engine.Overlap
import Uplift.Proofs.Run.Overdue
import Uplift.Proofs.Pattern.Pieces
import Uplift.Proofs.Pattern.Literals
import Uplift.Proofs.Analysis.Splices
import Uplift.Proofs.Pattern.Templates
import Uplift.Proofs.Plan.Milestones
import Uplift.Proofs.Plan.Risk
import Uplift.Proofs.Collaborator.BuildConfig
import Uplift.Proofs.Json.RoundTrip
import Uplift.Proofs.Collaborator.Additions
import Uplift.Proofs.Check.Delimiters
import Uplift.Proofs.Collaborator.Settings
import Uplift.Proofs.Json.Legibility
import Uplift.Proofs.Collaborator.Repetition
import Uplift.Proofs.Collaborator.Rereading
import Uplift.Proofs.Collaborator.Versions
import Uplift.Proofs.Check.Rewording
import Uplift.Proofs.Run.Hunks
import Uplift.Proofs.Pattern.Keywords
import Uplift.Proofs.Pattern.Settling
import Uplift.Proofs.Pattern.LineStructure
import Uplift.Proofs.Pattern.EmptyMatches
import Uplift.Proofs.Pattern.References
import Uplift.Proofs.Plan.Compatibility
import Uplift.Proofs.Request
