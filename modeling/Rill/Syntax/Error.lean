import Rill.Text.Lines
import Rill.Token.Error

/-! Sources that are no program. -/
namespace Rill.Syntax

/-- Why a source is no program. -/
inductive Fault where
  | unexpectedToken (actual expected : Token.Kind)
  | nonExpression (actual : Token.Kind)
  | invalidAssignmentTarget
  | invalidNewTarget
  | lexical (error : Token.Error)
deriving DecidableEq, Repr

namespace Fault

def message : Fault → String
  | unexpectedToken actual expected =>
    "Expected " ++ expected.title ++ " but got token " ++ actual.title ++ "."
  | nonExpression actual => "Expected an expression but got token " ++ actual.title ++ "."
  | invalidAssignmentTarget => "Invalid assignment target."
  | invalidNewTarget => "Expected a class name after `new`."
  | lexical e => e.fault.message

def code : Fault → String
  | unexpectedToken _ _ => "PA001"
  | nonExpression _ => "PA002"
  | invalidAssignmentTarget => "PA003"
  | invalidNewTarget => "PA004"
  | lexical e => e.fault.code

/-- The name of the sort of fault. -/
def label : Fault → String
  | unexpectedToken _ _ => "UnexpectedToken"
  | nonExpression _ => "NonExpression"
  | invalidAssignmentTarget => "InvalidAssignmentTarget"
  | invalidNewTarget => "InvalidNewTarget"
  | lexical _ => "LexicalError"

def outline (f : Fault) : Outline :=
  match f with
  | unexpectedToken actual expected =>
    .record f.label [("actual", .leaf actual.label), ("expected", .leaf expected.label)]
  | nonExpression actual => .tagged f.label [.leaf actual.label]
  | lexical e => .tagged f.label [e.outline]
  | _ => .leaf f.label

end Fault

/-- A fault with the place where it shows. -/
structure Error where
  fault : Fault
  span : Text.Span
deriving DecidableEq, Repr

namespace Error

def ofLexical (e : Token.Error) : Error := ⟨.lexical e, e.span⟩

def outline (e : Error) : Outline :=
  .record "ParserError" [("kind", e.fault.outline), ("span", .span e.span)]

/-- The form `[line L:C] Error: …`. -/
def line (lines : Text.Lines) (e : Error) : String :=
  "[line " ++ (lines.position e.span.start).render ++ "] Error: " ++ e.fault.message

end Error
end Rill.Syntax
