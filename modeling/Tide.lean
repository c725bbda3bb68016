import Tide.Number.Decimal
import Tide.Text.Blank
import Tide.Text.Quoted
import Tide.Text.Style
import Tide.Text.Terminal
import Tide.Token.Scan
import Tide.Tree.Stmt
import Tide.Grammar.Expression
import Tide.Grammar.Statement
import Tide.Analysis.ValueClass
import Tide.Emit.Expression
import Tide.Optimize.Fold
import Tide.Tree.Outline
import Tide.Optimize.Passes
import Tide.Analysis.Report
import Tide.Emit.Unit
import Tide.Compile
import Tide.Instrument.Edits
import Tide.Main
import Tide.Proofs.Fold.Value
import Tide.Proofs.Fold.Printing
import Tide.Proofs.Optimize.Rounds
import Tide.Proofs.Purity.Contract
import Tide.Proofs.Token.RawText
import Tide.Proofs.Grammar.Printing
import Tide.Proofs.Emit.Expression
import Tide.Proofs.Context.Compilation
import Tide.Proofs.Context.Instruments
import Tide.Proofs.Context.Session
import Tide.Proofs.Lines.Output
import Tide.Proofs.Lines.Analysis
import Tide.Proofs.Lines.Compilation
import Tide.Proofs.Metadata.Embedding
import Tide.Proofs.Grammar.Onward
import Tide.Proofs.Overlay.Trace
import Tide.Proofs.Overlay.Buffer
import Tide.Proofs.Overlay.Reading
import Tide.Proofs.Overlay.Placement
import Tide.Proofs.Sign.Branches
import Tide.Proofs.Sign.CallSites
import Tide.Proofs.Purity.Regions
import Tide.Proofs.Sign.LocalFunctions
import Tide.Proofs.Sign.Execution
import Tide.Proofs.Sign.Soundness
import Tide.Proofs.ValueClass.Inference
import Tide.Proofs.Purity.Reachability
import Tide.Proofs.Fold.Calls
import Tide.Proofs.ValueClass.Folding
import Tide.Proofs.Scope.Levels
import Tide.Proofs.ValueClass.Scoping
import Tide.Proofs.Grammar.Progress
import Tide.Proofs.Grammar.Nesting
import Tide.Proofs.Optimize.Pruning
import Tide.Proofs.Optimize.Folding
import Tide.Proofs.Grammar.Clauses
import Tide.Proofs.Grammar.Parameters
import Tide.Proofs.Emit.BreakTarget
import Tide.Proofs.Emit.Reliance
import Tide.Proofs.Emit.Temporaries
import Tide.Proofs.Emit.Escaping
import Tide.Proofs.Emit.DoubleLiteral
import Tide.Proofs.Emit.NestedBlocks
import Tide.Proofs.Command.Outputs
import Tide.Proofs.Context.Replay
