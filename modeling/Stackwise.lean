import Stackwise.Arith.Apply
import Stackwise.Arith.Number
import Stackwise.Arith.Sequence
import Stackwise.Assembler
import Stackwise.Binary64.Basic
import Stackwise.Binary64.Decimal
import Stackwise.Binary64.Elementary
import Stackwise.Builtin.Call
import Stackwise.Builtin.Class
import Stackwise.Builtin.Collection
import Stackwise.Builtin.Iterate
import Stackwise.Builtin.Number
import Stackwise.Builtin.Text
import Stackwise.Code
import Stackwise.Compile
import Stackwise.ErrorClass
import Stackwise.Fault.Basic
import Stackwise.Fault.Message
import Stackwise.Fold
import Stackwise.Format.Layout
import Stackwise.Format.Percent
import Stackwise.Format.Real
import Stackwise.Machine
import Stackwise.Main
import Stackwise.Name
import Stackwise.Opcode
import Stackwise.Operator
import Stackwise.Prompt
import Stackwise.Proofs.Listing
import Stackwise.Proofs.Outcome
import Stackwise.Session
import Stackwise.Sort
import Stackwise.Syntax.Build
import Stackwise.Syntax.Grammar.Basic
import Stackwise.Syntax.Grammar.Expression
import Stackwise.Syntax.Grammar.Formatted
import Stackwise.Syntax.Grammar.Pattern
import Stackwise.Syntax.Grammar.Statement
import Stackwise.Syntax.Grammar.Target
import Stackwise.Syntax.Lexer
import Stackwise.Syntax.Number
import Stackwise.Syntax.Quotation
import Stackwise.Syntax.Read
import Stackwise.Syntax.Token
import Stackwise.Syntax.Tree
import Stackwise.Text.Class
import Stackwise.Text.Compatible
import Stackwise.Text.Composite
import Stackwise.Text.Digit
import Stackwise.Text.Encoding
import Stackwise.Text.Identifier
import Stackwise.Text.Normal
import Stackwise.Text.Numeral
import Stackwise.Text.Printable
import Stackwise.Text.Quoted
import Stackwise.Value.Basic
import Stackwise.Value.Order
import Stackwise.Value.Same
import Stackwise.Value.Show
import Stackwise.Workload
import Stackwise.World
import Stackwise.Proofs.Emission
import Stackwise.Proofs.Layout
import Stackwise.Proofs.Tables
import Stackwise.Proofs.Instruction
import Stackwise.Proofs.WellFormed
import Stackwise.Proofs.Loop
import Stackwise.Proofs.ListingRun
import Stackwise.Proofs.Evaluator
import Stackwise.Proofs.Simulation
import Stackwise.Proofs.Correctness
import Stackwise.Proofs.Session
import Stackwise.Proofs.Shape
import Stackwise.Proofs.Keys
import Stackwise.Proofs.Folding
import Stackwise.Proofs.FoldedCode
import Stackwise.Proofs.FoldedRun
import Stackwise.Proofs.Codec
import Stackwise.Proofs.Relocation
import Stackwise.Proofs.Composition
import Stackwise.Proofs.Constants
import Stackwise.Proofs.Whole
import Stackwise.Proofs.FoldFaults
import Stackwise.Proofs.StackDepth
import Stackwise.Proofs.Balance
import Stackwise.Proofs.NameTable
import Stackwise.Proofs.EmitInduction
import Stackwise.Proofs.EarlyBuild
import Stackwise.Proofs.Visited
import Stackwise.Proofs.ExecInduction
import Stackwise.Proofs.Variables
import Stackwise.Proofs.Blocks
import Stackwise.Proofs.Calls
import Stackwise.Proofs.Building
import Stackwise.Proofs.NormalForm
import Stackwise.Proofs.Insertion
import Stackwise.Proofs.Displays
import Stackwise.Proofs.Settled
import Stackwise.Proofs.Marks
import Stackwise.Proofs.ConstantExpressions
import Stackwise.Proofs.Effects
import Stackwise.Proofs.Forward
import Stackwise.Proofs.Acceptance
import Stackwise.Proofs.Sameness
import Stackwise.Proofs.Indices
import Stackwise.Proofs.Unrolled
import Stackwise.Proofs.Saturation
