import FlatScope.Main
import FlatScope.Tree.Node
import FlatScope.Proofs.Accounting.Unit
import FlatScope.Proofs.Addressing
import FlatScope.Proofs.Allocation.Unit
import FlatScope.Proofs.Concatenation.Unit
import FlatScope.Proofs.Constants.Unit
import FlatScope.Proofs.Containment.Unit
import FlatScope.Proofs.Delimiting.Unit
import FlatScope.Proofs.Expectation.Expected
import FlatScope.Proofs.Expectation.Spacing
import FlatScope.Proofs.Grammar.Alike
import FlatScope.Proofs.Grammar.Completeness
import FlatScope.Proofs.Grammar.Proper
import FlatScope.Proofs.Grammar.Soundness
import FlatScope.Proofs.Grammar.Validation
import FlatScope.Proofs.Grammar.Viable
import FlatScope.Proofs.Grammar.WellFormed
import FlatScope.Proofs.Isolation
import FlatScope.Proofs.Layout.Unit
import FlatScope.Proofs.Ledger
import FlatScope.Proofs.Munching.Prefix
import FlatScope.Proofs.Munching.Quote
import FlatScope.Proofs.Munching.Scan
import FlatScope.Proofs.Notes.Unit
import FlatScope.Proofs.Pointing.Unit
import FlatScope.Proofs.Printing.Basic
import FlatScope.Proofs.Printing.Expr
import FlatScope.Proofs.Printing.Stmt
import FlatScope.Proofs.Printing.Unit
import FlatScope.Proofs.Rebracing.Unit
import FlatScope.Proofs.Rechecking.Unit
import FlatScope.Proofs.Rejection
import FlatScope.Proofs.Renaming
import FlatScope.Proofs.Reordering.Unit
import FlatScope.Proofs.Reprinting
import FlatScope.Proofs.Resolution.Phases
import FlatScope.Proofs.Rewriting.Unit
import FlatScope.Proofs.RoundTrip
import FlatScope.Proofs.Scopes.Unit
import FlatScope.Proofs.Separation
import FlatScope.Proofs.Spelling.Operand
import FlatScope.Proofs.Spelling.Unit
import FlatScope.Proofs.Tables.Unit
import FlatScope.Proofs.Token.Tiling
import FlatScope.Proofs.Totality.Unit
import FlatScope.Proofs.Typing.Body
import FlatScope.Proofs.Typing.Unit
import FlatScope.Proofs.Verdict
import FlatScope.Proofs.Walking.Unit
