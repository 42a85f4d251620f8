import BlockVector.RowCount
import BlockVector.Form
import BlockVector.Mismatch
import BlockVector.Dense
import BlockVector.Decimal
import BlockVector.Json.Reader
import BlockVector.Json.Writer
import BlockVector.Number.Basic
import BlockVector.Number.Text
import BlockVector.Scalar
import BlockVector.Leaf
import BlockVector.Family.Basic
import BlockVector.Family.Composition
import BlockVector.Family.Name
import BlockVector.Stacked.Basic
import BlockVector.Stacked.Conversion
import BlockVector.Stacked.Checked
import BlockVector.Stacked.Assignment
import BlockVector.Stacked.Composition
import BlockVector.Stacked.Comparison
import BlockVector.Stacked.Random
import BlockVector.Stacked.Listing
import BlockVector.Stacked.Display
import BlockVector.Stacked.Json
import BlockVector.Proofs.RowCount.Sum
import BlockVector.Proofs.RowCount.Overflow
import BlockVector.Proofs.Family.Rows
import BlockVector.Proofs.Family.Grouping
import BlockVector.Proofs.Stacked.Decoding
import BlockVector.Proofs.Assignment.Step
import BlockVector.Proofs.Stacked.LeafRows
import BlockVector.Proofs.Assignment.Effect
import BlockVector.Proofs.Stacked.Building
import BlockVector.Proofs.Stacked.Zeros
import BlockVector.Proofs.Stacked.Operands
import BlockVector.Proofs.Stacked.Run
import BlockVector.Proofs.Assignment.Interruption
import BlockVector.Proofs.Assignment.Repetition
import BlockVector.Proofs.Stacked.Regrouping
import BlockVector.Proofs.Stacked.Refusal
import BlockVector.Proofs.Stacked.Splitting
import BlockVector.Proofs.Stacked.Reporting
import BlockVector.Proofs.Stacked.Equality
import BlockVector.Proofs.Stacked.Closeness
import BlockVector.Proofs.Json.Literal
import BlockVector.Proofs.Json.Text
import BlockVector.Proofs.Json.Token
import BlockVector.Proofs.Json.Value
import BlockVector.Proofs.RowCount.Json
import BlockVector.Proofs.Decimal
import BlockVector.Proofs.Number.Rounding
import BlockVector.Proofs.Number.Text
import BlockVector.Proofs.Stacked.Json
import BlockVector.Proofs.Number.Random
import BlockVector.Proofs.Stacked.Random
import BlockVector.Proofs.Mismatch
import BlockVector.Proofs.Stacked.Listing
