import Rulebook.ArrayTree
import Rulebook.Dataset.Build
import Rulebook.Dataset.Check
import Rulebook.Formula.Build
import Rulebook.Formula.Validate
import Rulebook.Listing.Read
import Rulebook.Log.Sinks
import Rulebook.Model.Batch
import Rulebook.Model.Same
import Rulebook.Proofs.Checking
import Rulebook.Proofs.Nesting
import Rulebook.Proofs.Slices
import Rulebook.Settings.Dotenv
import Rulebook.Proofs.BatchApply
import Rulebook.Proofs.BatchCheck
import Rulebook.Proofs.LineGrammar
import Rulebook.Proofs.LineTokens
import Rulebook.Proofs.LineClauses
import Rulebook.Proofs.LineScore
import Rulebook.Proofs.LineRead
import Rulebook.Proofs.Coverage
import Rulebook.Proofs.IfElseChain
import Rulebook.Proofs.Openness
import Rulebook.Proofs.Meaning
import Rulebook.Proofs.CountLimit
import Rulebook.Proofs.Stepwise
import Rulebook.Proofs.PlaceOrder
import Rulebook.Proofs.ArrayWalk
import Rulebook.Proofs.Tallies
import Rulebook.Proofs.Majority
import Rulebook.Proofs.Handles
import Rulebook.Proofs.Mentioned
import Rulebook.Proofs.Leaves
import Rulebook.Proofs.Asking
import Rulebook.Proofs.Feasible
import Rulebook.Proofs.Quiet
import Rulebook.Proofs.Trailing
import Rulebook.Proofs.Winner
import Rulebook.Proofs.VoteOrder
import Rulebook.Proofs.SliceFaults
import Rulebook.Proofs.Pruning
import Rulebook.Proofs.BlamedColumn
import Rulebook.Proofs.NumberCheck
import Rulebook.Proofs.Gaps
import Rulebook.Proofs.Columnless
import Rulebook.Proofs.BlamedLine
import Rulebook.Proofs.Folding
import Rulebook.Proofs.LineText
import Rulebook.Proofs.LineLayout
import Rulebook.Proofs.Layout
import Rulebook.Proofs.Joining
import Rulebook.Proofs.ArrayShape
import Rulebook.Proofs.Drawing
import Rulebook.Proofs.FailedEnable
import Rulebook.Proofs.Measures
import Rulebook.Proofs.ReadingLog
import Rulebook.Proofs.FileText
import Rulebook.Proofs.Spelling
import Rulebook.Proofs.LineCover
import Rulebook.Proofs.Scanner
