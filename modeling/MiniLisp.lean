import MiniLisp.Editor.Workspace
import MiniLisp.Editor.Message
import MiniLisp.Main
import MiniLisp.Proofs.Session.Confinement
import MiniLisp.Proofs.Session.Failure
import MiniLisp.Proofs.Session.Kinds
import MiniLisp.Proofs.Evaluation.Depth
import MiniLisp.Proofs.Session.Depth
import MiniLisp.Proofs.Evaluation.Simulation
import MiniLisp.Proofs.Evaluation.Calls
import MiniLisp.Proofs.Evaluation.FirstOrder
import MiniLisp.Proofs.Arithmetic
import MiniLisp.Proofs.Store.Lookup
import MiniLisp.Proofs.Evaluation.UnreadNames
import MiniLisp.Proofs.Store.Reach
import MiniLisp.Proofs.Evaluation.Invariant
import MiniLisp.Proofs.Evaluation.Escape
import MiniLisp.Proofs.Value.Substitution
import MiniLisp.Proofs.Evaluation.Redex
import MiniLisp.Proofs.Evaluation.Beta
import MiniLisp.Proofs.Evaluation.Relocation
import MiniLisp.Proofs.Session.Purity
import MiniLisp.Proofs.Value.Renaming
import MiniLisp.Proofs.Evaluation.Renaming
import MiniLisp.Proofs.Reading.Stream
import MiniLisp.Proofs.Number.Text
import MiniLisp.Proofs.Token.Parentheses
import MiniLisp.Proofs.Reading.Renaming
import MiniLisp.Proofs.Reading.RoundTrip
import MiniLisp.Proofs.Value.Unambiguous
import MiniLisp.Proofs.Session.Renaming
import MiniLisp.Proofs.Token.Placed
import MiniLisp.Proofs.Reading.Balance
import MiniLisp.Proofs.Editor.Syntax
import MiniLisp.Proofs.Token.Places
import MiniLisp.Proofs.Reading.Tree
import MiniLisp.Proofs.Table
import MiniLisp.Proofs.Editor.Definitions
import MiniLisp.Proofs.Session.Sequence
import MiniLisp.Proofs.Editor.Soundness
import MiniLisp.Proofs.Error
import MiniLisp.Proofs.Token.Cut
import MiniLisp.Proofs.Evaluation.SyntaxErrors
import MiniLisp.Proofs.Session.Dialogue
import MiniLisp.Proofs.Session.Prelude
import MiniLisp.Proofs.Evaluation.Notes
import MiniLisp.Proofs.Session.Loading
import MiniLisp.Proofs.Token.Spacing
import MiniLisp.Proofs.Token.Coverage
import MiniLisp.Proofs.Text.AllLines
import MiniLisp.Proofs.Editor.Word
import MiniLisp.Proofs.Editor.Message
import MiniLisp.Proofs.Reading.Sequence
import MiniLisp.Proofs.Editor.Continuation
import MiniLisp.Proofs.Editor.Cursor
import MiniLisp.Proofs.Store.Ledger
import MiniLisp.Proofs.Number.Order
import MiniLisp.Proofs.Comparison
import MiniLisp.Proofs.Value.Coloring
import MiniLisp.Proofs.Editor.Names
import MiniLisp.Proofs.Files.Tree
import MiniLisp.Proofs.Files.SearchPath
import MiniLisp.Proofs.Files.Preludes
import MiniLisp.Proofs.Store.Rooted
import MiniLisp.Proofs.Evaluation.Moments
import MiniLisp.Proofs.Session.Moments
import MiniLisp.Proofs.Editor.Range
