import SyntaxPaint.Main
import SyntaxPaint.Caret
import SyntaxPaint.Scan.Machine
import SyntaxPaint.Specimen
import SyntaxPaint.Random.SplitMix
import SyntaxPaint.Storage.Disk
import SyntaxPaint.Proofs.Beginnings
import SyntaxPaint.Proofs.CanonicalForm
import SyntaxPaint.Proofs.Description
import SyntaxPaint.Proofs.History
import SyntaxPaint.Proofs.Isolation
import SyntaxPaint.Proofs.LiteralSearch
import SyntaxPaint.Proofs.Lookups
import SyntaxPaint.Proofs.Mirror
import SyntaxPaint.Proofs.Resumption
import SyntaxPaint.Proofs.SourceLexemes
import SyntaxPaint.Proofs.TaggedText
import SyntaxPaint.Proofs.TokenStates
import SyntaxPaint.Proofs.GroupSearch
import SyntaxPaint.Proofs.StackMachine
import SyntaxPaint.Proofs.Course
import SyntaxPaint.Proofs.InnerSearch
import SyntaxPaint.Proofs.Classes
import SyntaxPaint.Proofs.Clipping
import SyntaxPaint.Proofs.Lookalikes
import SyntaxPaint.Proofs.Vocabulary
import SyntaxPaint.Proofs.Drawings
import SyntaxPaint.Proofs.SourceLength
import SyntaxPaint.Proofs.BalancedText
import SyntaxPaint.Proofs.CaretMoves
import SyntaxPaint.Proofs.Blocks
import SyntaxPaint.Proofs.RecordForm
import SyntaxPaint.Proofs.Openings
import SyntaxPaint.Proofs.Borrowing
import SyntaxPaint.Proofs.Interning
import SyntaxPaint.Proofs.Sweep
