import Rill.Syntax.Tree
import Rill.Text.Lines

/-! Where `break`, `continue` and `return` may stand. -/
namespace Rill.Syntax

open Text (Span)

/-- Statements that can take no effect where they stand. -/
inductive Misplacement where
  | breakOutsideLoop
  | continueOutsideLoop
  | returnOutsideFunction
deriving DecidableEq, Repr

namespace Misplacement

def message : Misplacement → String
  | breakOutsideLoop => "Can't use `break` outside of a loop."
  | continueOutsideLoop => "Can't use `continue` outside of a loop."
  | returnOutsideFunction => "Can't return from outside a function."

def code : Misplacement → String
  | breakOutsideLoop => "RA001"
  | continueOutsideLoop => "RA002"
  | returnOutsideFunction => "RA003"

/-- The heading of a report. -/
def heading : Misplacement → String
  | breakOutsideLoop => "Breaking outside of a loop"
  | continueOutsideLoop => "Continuing outside of a loop"
  | returnOutsideFunction => "Returning from a non-function context"

def label : Misplacement → String
  | breakOutsideLoop => "BreakOutsideLoop"
  | continueOutsideLoop => "ContinueOutsideLoop"
  | returnOutsideFunction => "NonFunctionReturn"

end Misplacement

/-- A misplaced statement with its place. -/
structure PlacementError where
  fault : Misplacement
  span : Span
deriving DecidableEq, Repr

namespace PlacementError

def outline (e : PlacementError) : Outline :=
  .record "ResolutionError" [("kind", .leaf e.fault.label), ("span", .span e.span)]

/-- The form `[line L:C] Error: …`. -/
def line (lines : Text.Lines) (e : PlacementError) : String :=
  "[line " ++ (lines.position e.span.start).render ++ "] Error: " ++ e.fault.message

end PlacementError

/-- What stands around a statement, up to the nearest function, class or module. -/
structure Surroundings where
  inFunction : Bool
  /-- How many loops are around. -/
  loops : Nat
deriving DecidableEq, Repr

namespace Surroundings

/-- Outside of all functions and loops, as in the body of a class or module. -/
def bare : Surroundings := ⟨false, 0⟩

/-- Inside a function. -/
def function : Surroundings := ⟨true, 0⟩

/-- Inside one more loop. -/
def loop (c : Surroundings) : Surroundings := { c with loops := c.loops + 1 }

end Surroundings

mutual

/-- Checks the bodies of the function literals of an expression, from the left. -/
def Expr.check : Expr → Except PlacementError Unit
  | .atom _ _ => .ok ()
  | .group inner _ => inner.check
  | .sequence parts _ => checkExprs parts
  | .unary _ operand _ => operand.check
  | .binary _ lhs rhs _ => do
    lhs.check
    rhs.check
  | .logic _ lhs rhs _ => do
    lhs.check
    rhs.check
  | .assign _ target value _ => do
    target.check
    value.check
  | .call callee arguments _ => do
    callee.check
    checkExprs arguments
  | .create type arguments _ => do
    type.check
    checkExprs arguments
  | .subscript object index _ => do
    object.check
    index.check
  | .attr object _ _ => object.check
  | .function decl => decl.check
  | .list elements _ => checkExprs elements
  | .dict entries _ => checkEntries entries

def Target.check : Target → Except PlacementError Unit
  | .var _ => .ok ()
  | .attr object _ _ => object.check
  | .subscript object index _ => do
    object.check
    index.check

def checkExprs : List Expr → Except PlacementError Unit
  | [] => .ok ()
  | e :: es => do
    e.check
    checkExprs es

def checkEntries : List (Expr × Expr) → Except PlacementError Unit
  | [] => .ok ()
  | (key, value) :: es => do
    key.check
    value.check
    checkEntries es

def checkOption : Option Expr → Except PlacementError Unit
  | none => .ok ()
  | some e => e.check

def FunctionDecl.check : FunctionDecl → Except PlacementError Unit
  | ⟨_, _, body, _⟩ => checkAll .function body

def checkBranch (c : Surroundings) : Option (List Stmt) → Except PlacementError Unit
  | none => .ok ()
  | some body => checkAll c body

/-- Checks statements in order, up to the first misplaced one. -/
def checkAll (c : Surroundings) : List Stmt → Except PlacementError Unit
  | [] => .ok ()
  | s :: ss => do
    s.check c
    checkAll c ss

def Stmt.check (c : Surroundings) : Stmt → Except PlacementError Unit
  | .functionDecl decl => decl.check
  | .moduleDecl _ body _ => checkAll .bare body
  | .classDecl _ superclass body _ => do
    checkOption superclass
    checkAll .bare body
  | .block body _ => checkAll c body
  | .includeFile _ _ => .ok ()
  | .expr value => value.check
  | .ifElse condition success failure _ => do
    condition.check
    checkAll c success
    checkBranch c failure
  | .loop condition body step _ _ => do
    checkOption condition
    checkOption step
    checkAll c.loop body
  | .forEach _ iterable body _ => do
    iterable.check
    checkAll c.loop body
  | .breakLoop span => if c.loops = 0 then .error ⟨.breakOutsideLoop, span⟩ else .ok ()
  | .continueLoop span => if c.loops = 0 then .error ⟨.continueOutsideLoop, span⟩ else .ok ()
  | .returnValue value span =>
    if c.inFunction then checkOption value else .error ⟨.returnOutsideFunction, span⟩

end

/-- Checks a whole program. -/
def Program.check (p : Program) : Except PlacementError Unit := checkAll .bare p

theorem seq_eq_ok {x y : Except PlacementError Unit} :
    (do x; y) = .ok () ↔ x = .ok () ∧ y = .ok () := by
  cases x with
  | error e => exact ⟨nofun, fun h => nomatch h.1⟩
  | ok u => exact ⟨fun h => ⟨rfl, h⟩, fun h => h.2⟩

end Rill.Syntax
