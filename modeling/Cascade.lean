import Cascade.Origin.InfoTable
import Cascade.Proofs.Arithmetic.Indeterminate
import Cascade.Proofs.Arithmetic.Numbers
import Cascade.Proofs.Arithmetic.Scaling
import Cascade.Proofs.Arithmetic.Trees
import Cascade.Proofs.Color.Forms
import Cascade.Proofs.Comparison.Equality
import Cascade.Proofs.Decimal.Doubles
import Cascade.Proofs.Decimal.Positional
import Cascade.Proofs.Evaluation.Arguments
import Cascade.Proofs.Evaluation.Candidates
import Cascade.Proofs.Evaluation.Core
import Cascade.Proofs.Evaluation.Flat
import Cascade.Proofs.Evaluation.Formulas
import Cascade.Proofs.Evaluation.Grouping
import Cascade.Proofs.Evaluation.Hidden
import Cascade.Proofs.Evaluation.Hoisting
import Cascade.Proofs.Evaluation.Interpolation
import Cascade.Proofs.Evaluation.Lexical
import Cascade.Proofs.Evaluation.Lockstep
import Cascade.Proofs.Evaluation.Lookup
import Cascade.Proofs.Evaluation.Markers
import Cascade.Proofs.Evaluation.MathModes
import Cascade.Proofs.Evaluation.Nesting
import Cascade.Proofs.Evaluation.Normal
import Cascade.Proofs.Evaluation.OuterScopes
import Cascade.Proofs.Evaluation.Output
import Cascade.Proofs.Evaluation.Parentheses
import Cascade.Proofs.Evaluation.PlainCalls
import Cascade.Proofs.Evaluation.Recursion
import Cascade.Proofs.Evaluation.Resolved
import Cascade.Proofs.Evaluation.Results
import Cascade.Proofs.Evaluation.Selectors
import Cascade.Proofs.Evaluation.Sharing
import Cascade.Proofs.Evaluation.Termination
import Cascade.Proofs.Origin.Forest
import Cascade.Proofs.Origin.Snapshots
import Cascade.Proofs.Printing.Blocks
import Cascade.Proofs.Printing.Comments
import Cascade.Proofs.Printing.Compressed
import Cascade.Proofs.Printing.Core
import Cascade.Proofs.Printing.Dimensions
import Cascade.Proofs.Printing.InPlace
import Cascade.Proofs.Tree.Core
import Cascade.Proofs.Units.Conversion
import Cascade.Proofs.Units.Quantity
import Cascade.Proofs.Units.Signature
import Cascade.Proofs.Units.Spelling
import Cascade.Proofs.Units.Sums
import Cascade.Render.Page
import Cascade.Stylesheet
import Cascade.Workspace.Basic
