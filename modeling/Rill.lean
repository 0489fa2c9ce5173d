import Rill.Arithmetic
import Rill.Binary64
import Rill.Builtin
import Rill.Cli
import Rill.Cli.Arguments
import Rill.Decimal.Notation
import Rill.Decimal.Reader
import Rill.Decimal.Shortest
import Rill.Eval.Call
import Rill.Eval.Evaluator
import Rill.Eval.Native
import Rill.Eval.Tree
import Rill.Exact
import Rill.Fault
import Rill.Files
import Rill.Host
import Rill.Host.Toolkit
import Rill.Machine
import Rill.Main
import Rill.Outline
import Rill.Render
import Rill.Report
import Rill.Session
import Rill.Store
import Rill.Store.Dict
import Rill.Store.Scope
import Rill.Store.Sequence
import Rill.Syntax.Arena
import Rill.Syntax.Building
import Rill.Syntax.Error
import Rill.Syntax.Grammar
import Rill.Syntax.Operator
import Rill.Syntax.Outline
import Rill.Syntax.Parser
import Rill.Syntax.Placement
import Rill.Syntax.Polish
import Rill.Syntax.Tree
import Rill.Table
import Rill.Text.Blank
import Rill.Text.CaseMap
import Rill.Text.Lines
import Rill.Text.Printable
import Rill.Text.Quoted
import Rill.Text.Ranges
import Rill.Text.Span
import Rill.Token
import Rill.Token.Error
import Rill.Token.Lexer
import Rill.Token.Printer
import Rill.Value
import Rill.Proofs.Steps
import Rill.Proofs.Table
import Rill.Proofs.Frames
import Rill.Proofs.Regime
import Rill.Proofs.Indices
import Rill.Proofs.Bounds
import Rill.Proofs.Regime.Operations
import Rill.Proofs.Regime.Natives
import Rill.Proofs.Regime.Statements
import Rill.Proofs.Regime.Runs
import Rill.Proofs.Agreement
import Rill.Eval.Nodes
import Rill.Proofs.Nodes
import Rill.Proofs.Reachable
import Rill.Proofs.ControlFlow
import Rill.Proofs.Defects
import Rill.Proofs.CallStack
import Rill.Proofs.Exit
import Rill.Proofs.Sharing
import Rill.Proofs.Locals
import Rill.Proofs.Syntax.Finding
import Rill.Proofs.Syntax.Powers
import Rill.Proofs.Syntax.Precedence
import Rill.Proofs.Syntax.Soundness
import Rill.Proofs.Syntax.Bare
import Rill.Proofs.Syntax.Taking
import Rill.Proofs.Token.Spacing
import Rill.Proofs.Syntax.Completeness.Blocks
import Rill.Proofs.Syntax.Completeness.Expressions
import Rill.Proofs.Syntax.Completeness.Statements
import Rill.Proofs.Syntax.RoundTrip
import Rill.Proofs.Token.Grammar
import Rill.Proofs.Token.LongestMatch
import Rill.Proofs.Token.Tiling
import Rill.Proofs.Text.Quoting
import Rill.Proofs.Text.Lines
import Rill.Proofs.Mirror
import Rill.Proofs.Datum
import Rill.Proofs.Datum.Literal
import Rill.Proofs.Datum.Reread
import Rill.Proofs.Syntax.Likeness
import Rill.Proofs.Syntax.Likeness.Rules
import Rill.Proofs.Places.Toolkit
import Rill.Proofs.Places.Statements
import Rill.Proofs.Syntax.Verdict
import Rill.Proofs.Layout
import Rill.Proofs.CallLimit
import Rill.Proofs.Persistence
import Rill.Proofs.Veil
import Rill.Proofs.Veil.Rules
import Rill.Proofs.Veil.Attempts
import Rill.Proofs.Veil.Operations
import Rill.Proofs.Veil.Natives
import Rill.Proofs.Veil.Statements
import Rill.Proofs.Refusal
import Rill.Proofs.Veil.Runs
import Rill.Proofs.Veil.Sessions
import Rill.Proofs.Exceptions
import Rill.Proofs.Veil.Toolkit
import Rill.Proofs.Iteration.Methods
import Rill.Proofs.Iteration.Iterators
import Rill.Proofs.Iteration.Loops
import Rill.Proofs.Iteration.Yields
import Rill.Proofs.Iteration
import Rill.Proofs.Syntax.Nesting
import Rill.Proofs.Syntax.Tracking
import Rill.Proofs.Hooks
import Rill.Proofs.InPlace
import Rill.Proofs.Renumbering.Store
import Rill.Proofs.Renumbering.Actions
import Rill.Proofs.Renumbering.Attempts
import Rill.Proofs.Renumbering.Machine
import Rill.Proofs.Renumbering.Operations
import Rill.Proofs.Renumbering.Natives
import Rill.Proofs.Renumbering.Statements
import Rill.Proofs.Renumbering.Toolkit
import Rill.Proofs.Renumbering.Sessions
import Rill.Proofs.Binding
import Rill.Proofs.Syntax.Tracing
import Rill.Proofs.Syntax.Extents
import Rill.Proofs.Syntax.Extents.Expressions
import Rill.Proofs.Syntax.Extents.Statements
import Rill.Proofs.Syntax.Extents.Programs
import Rill.Proofs.Syntax.Tables
import Rill.Proofs.Syntax.Building
import Rill.Proofs.Syntax.Tables.Readings
import Rill.Proofs.Syntax.Loops
import Rill.Proofs.Syntax.Settling
import Rill.Proofs.Syntax.Settling.Rules
import Rill.Proofs.Syntax.Progress
import Rill.Proofs.Syntax.Viability
import Rill.Proofs.Syntax.Viability.Expressions
import Rill.Proofs.Syntax.Viability.Statements
import Rill.Proofs.Syntax.Viability.Programs
import Rill.Proofs.Exact
import Rill.Proofs.Exact.Powers
import Rill.Proofs.Arithmetic
import Rill.Proofs.Progressions
import Rill.Proofs.Rendering.Figures
import Rill.Proofs.Rendering
import Rill.Proofs.Sequence
import Rill.Proofs.Dict
import Rill.Proofs.Bridge
import Rill.Proofs.Raising
import Rill.Proofs.Composition
import Rill.Proofs.Inclusion
