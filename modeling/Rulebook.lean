import Rulebook.Main
import Rulebook.Proofs.Include.Walk
import Rulebook.Proofs.Include.Tree
import Rulebook.Proofs.Project.Recall
import Rulebook.Proofs.Project.Question
import Rulebook.Proofs.Project.Answered
import Rulebook.Proofs.Project.History
import Rulebook.Proofs.Condition.Weight
import Rulebook.Proofs.Condition.Written
import Rulebook.Proofs.Condition.RoundTrip
import Rulebook.Proofs.Condition.Grammar
import Rulebook.Proofs.Condition.Spelled
import Rulebook.Proofs.Condition.Joined
import Rulebook.Proofs.Document.Block
import Rulebook.Proofs.Include.Append
import Rulebook.Proofs.Include.Replacement
import Rulebook.Proofs.Composition.SecondBlock
import Rulebook.Proofs.Include.Settled
import Rulebook.Proofs.Include.Address
import Rulebook.Proofs.Include.Failure
import Rulebook.Proofs.File.Reading
import Rulebook.Proofs.Include.Blame
import Rulebook.Proofs.Include.Limit
import Rulebook.Proofs.Include.Standalone
import Rulebook.Proofs.Include.Arrival
import Rulebook.Proofs.Include.Reentry
import Rulebook.Proofs.Include.Boundary
import Rulebook.Proofs.Document.Assembled
import Rulebook.Proofs.Document.Rerendered
import Rulebook.Proofs.Project.Gained
import Rulebook.Proofs.Condition.Outcome
import Rulebook.Proofs.Condition.Boundary
import Rulebook.Proofs.Project.Package
import Rulebook.Proofs.Composition.Independent
import Rulebook.Proofs.File.Confined
import Rulebook.Proofs.Project.Rooted
import Rulebook.Proofs.Config.Override
import Rulebook.Proofs.Config.Sharing
import Rulebook.Proofs.Config.Applied
import Rulebook.Proofs.Document.Tidied
import Rulebook.Proofs.Config.Accepted
import Rulebook.Proofs.Config.Present
import Rulebook.Proofs.Config.Sufficient
import Rulebook.Proofs.Config.Coerced
import Rulebook.Proofs.Config.Outcome
import Rulebook.Proofs.Condition.Fold
import Rulebook.Proofs.Condition.Segments
import Rulebook.Proofs.Condition.Position
import Rulebook.Proofs.Include.Pattern
import Rulebook.Proofs.Include.LineByLine
import Rulebook.Proofs.Target.Wording
import Rulebook.Proofs.Document.Enclosed
import Rulebook.Proofs.Value.Preferred
import Rulebook.Proofs.Value.Contained
import Rulebook.Proofs.Config.Overlaid
import Rulebook.Proofs.Config.Marked
import Rulebook.Proofs.Manifest.Required
import Rulebook.Proofs.Manifest.Layout
