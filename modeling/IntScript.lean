import IntScript.Directory
import IntScript.Main
import IntScript.Proofs.Shape
import IntScript.Proofs.Infix
import IntScript.Proofs.Reading
import IntScript.Proofs.Grammar
import IntScript.Proofs.Acceptance
import IntScript.Proofs.Steps
import IntScript.Proofs.Arity
import IntScript.Proofs.Evaluator
import IntScript.Proofs.Simulation
import IntScript.Proofs.Traversal
import IntScript.Proofs.Bindings
import IntScript.Proofs.ValueStack
import IntScript.Proofs.CallGraph
import IntScript.Proofs.Recorded
import IntScript.Proofs.Recursion
import IntScript.Proofs.ExactEvaluator
import IntScript.Proofs.Overflow
import IntScript.Proofs.Sequence
import IntScript.Proofs.Lockstep
import IntScript.Proofs.Renaming
import IntScript.Proofs.Brackets
import IntScript.Proofs.Rejection
import IntScript.Proofs.Mismatch
import IntScript.Proofs.LineOrder
import IntScript.Proofs.Lexemes
import IntScript.Proofs.ByteOffsets
import IntScript.Proofs.Scanning
import IntScript.Proofs.Columns
import IntScript.Proofs.Spacing
import IntScript.Proofs.Positions
import IntScript.Proofs.Failures
import IntScript.Proofs.ErrorLines
import IntScript.Proofs.WordStream
import IntScript.Proofs.Limits
import IntScript.Proofs.FullSink
import IntScript.Proofs.Flushes
import IntScript.Proofs.Relocation
import IntScript.Proofs.Arithmetic
import IntScript.Proofs.Decimals
import IntScript.Proofs.PrintedNumbers
import IntScript.Proofs.LineEnds
import IntScript.Proofs.Supply
import IntScript.Proofs.Numerals
import IntScript.Proofs.Reuse
import IntScript.Proofs.Conservation
import IntScript.Proofs.Consistency
import IntScript.Proofs.SourceLines
import IntScript.Proofs.ArityCheck
