import Rill.Binary64
import Rill.Syntax.Operator

/-! Syntax trees of programs. -/
namespace Rill.Syntax

open Text (Span)

/-- A name with its place. -/
structure Ident where
  name : String
  span : Span
deriving DecidableEq, Repr

/-- Literals and variables. -/
inductive Atom where
  | int (i : Int64)
  | float (x : Binary64)
  | bool (b : Bool)
  | null
  | var (name : String)
  | string (s : String)
deriving DecidableEq, Repr

mutual

inductive Expr where
  | atom (a : Atom) (span : Span)
  /-- An expression in parentheses. -/
  | group (inner : Expr) (span : Span)
  /-- Expressions between commas; the last one gives the value. -/
  | sequence (parts : List Expr) (span : Span)
  | unary (op : UnaryOp) (operand : Expr) (span : Span)
  | binary (op : BinaryOp) (lhs rhs : Expr) (span : Span)
  | logic (op : LogicOp) (lhs rhs : Expr) (span : Span)
  | assign (op : AssignOp) (target : Target) (value : Expr) (span : Span)
  | call (callee : Expr) (arguments : List Expr) (span : Span)
  /-- Creation of an instance. -/
  | create (type : Expr) (arguments : List Expr) (span : Span)
  | subscript (object index : Expr) (span : Span)
  | attr (object : Expr) (name : Ident) (span : Span)
  | function (decl : FunctionDecl)
  | list (elements : List Expr) (span : Span)
  | dict (entries : List (Expr × Expr)) (span : Span)

/-- What an assignment can write to. -/
inductive Target where
  | var (name : Ident)
  | attr (object : Expr) (name : Ident) (span : Span)
  | subscript (object index : Expr) (span : Span)

/-- A function with its parameters and body. Without a name of its own it is `<anonymous>`. -/
structure FunctionDecl where
  name : Ident
  parameters : List Ident
  body : List Stmt
  span : Span

inductive Stmt where
  | functionDecl (decl : FunctionDecl)
  | moduleDecl (name : Ident) (body : List Stmt) (span : Span)
  | classDecl (name : Ident) (superclass : Option Expr) (body : List Stmt) (span : Span)
  /-- Statements run one after another in the scope around them. -/
  | block (body : List Stmt) (span : Span)
  | includeFile (path : String) (span : Span)
  | expr (value : Expr)
  | ifElse (condition : Expr) (success : List Stmt) (failure : Option (List Stmt)) (span : Span)
  /-- A loop that goes on while the condition holds, or forever without one. The step runs after
  each round; with `testAfter` the first round runs before the first test. -/
  | loop (condition : Option Expr) (body : List Stmt) (step : Option Expr) (testAfter : Bool)
      (span : Span)
  | forEach (element : Ident) (iterable : Expr) (body : List Stmt) (span : Span)
  | breakLoop (span : Span)
  | continueLoop (span : Span)
  | returnValue (value : Option Expr) (span : Span)

end

/-- A source as its statements. -/
abbrev Program := List Stmt

namespace Expr

def span : Expr → Span
  | atom _ s | group _ s | sequence _ s | unary _ _ s | binary _ _ _ s | logic _ _ _ s
  | assign _ _ _ s | call _ _ s | create _ _ s | subscript _ _ s | attr _ _ s | list _ s
  | dict _ s => s
  | function decl => decl.span

/-- The place that an expression denotes, if it can be assigned to. -/
def target? : Expr → Option Target
  | atom (.var name) s => some (.var ⟨name, s⟩)
  | attr object name s => some (.attr object name s)
  | subscript object index s => some (.subscript object index s)
  | _ => none

end Expr

namespace Stmt

def span : Stmt → Span
  | functionDecl decl => decl.span
  | expr value => value.span
  | moduleDecl _ _ s | classDecl _ _ _ s | block _ s | includeFile _ s | ifElse _ _ _ s
  | loop _ _ _ _ s | forEach _ _ _ s | breakLoop s | continueLoop s | returnValue _ s => s

end Stmt
end Rill.Syntax
