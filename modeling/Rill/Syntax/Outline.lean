import Rill.Decimal.Notation
import Rill.Syntax.Arena

/-! Outlines of programs, with expressions as tables of nodes. -/
namespace Rill.Syntax

def Ident.outline (i : Ident) : Outline :=
  .record "Ident" [("name", .text i.name), ("span", .span i.span)]

def Atom.outline : Atom → Outline
  | .int i => .tagged "Int" [.int i.toInt]
  | .float x => .tagged "Float" [.leaf (Decimal.write .outlined x)]
  | .bool b => .tagged "Bool" [.bool b]
  | .null => .leaf "Null"
  | .var name => .tagged "Identifier" [.text name]
  | .string s => .tagged "StringLiteral" [.text s]

/-- The number of a node. -/
def refOutline (n : Nat) : Outline := .tagged "ExpressionNodeRef" [.nat n]

def TargetNode.outline : TargetNode → Outline
  | .var name => .tagged "Variable" [name.outline]
  | .attr object name => .record "Attribute" [("object", refOutline object), ("name", name.outline)]
  | .subscript object index =>
    .record "Subscript" [("object", refOutline object), ("index", refOutline index)]

/-- The outline of a node, given the outlines of the function literals. -/
def Node.outline (functions : List Outline) : Node → Outline
  | .atom a span =>
    .tagged "Atom" [.record "ExpressionAtom" [("kind", a.outline), ("span", .span span)]]
  | .group inner => .record "Group" [("inner", refOutline inner)]
  | .sequence parts => .record "Sequence" [("expressions", .seq (parts.map refOutline))]
  | .unary op operand => .record "Prefix" [("operator", .leaf op.label), ("rhs", refOutline operand)]
  | .binary op lhs rhs =>
    .record "Infix" [("operator", .leaf op.label), ("lhs", refOutline lhs), ("rhs", refOutline rhs)]
  | .logic op lhs rhs =>
    .record "InfixShortCircuit"
      [("operator", .leaf op.label), ("lhs", refOutline lhs), ("rhs", refOutline rhs)]
  | .assign op target value =>
    .record "InfixAssignment"
      [("operator", op.outline), ("target", target.outline), ("rhs", refOutline value)]
  | .call callee arguments =>
    .record "Call" [("callee", refOutline callee), ("arguments", .seq (arguments.map refOutline))]
  | .create type arguments =>
    .record "New" [("class", refOutline type), ("arguments", .seq (arguments.map refOutline))]
  | .subscript object index =>
    .record "Subscript" [("object", refOutline object), ("index", refOutline index)]
  | .attr object name => .record "Get" [("object", refOutline object), ("name", name.outline)]
  | .function number => .tagged "Function" [functions[number]?.getD (.leaf "")]
  | .list elements => .record "List" [("elements", .seq (elements.map refOutline))]
  | .dict entries =>
    .record "Dict"
      [("entries", .seq (entries.map fun (k, v) => .tagged "" [refOutline k, refOutline v]))]

/-- The outline of an expression, given those of its function literals. -/
def Arena.outline (a : Arena) (functions : List Outline) : Outline :=
  .record "Expression"
    [("nodes", .seq (a.nodes.toList.map fun node => node.outline functions)),
      ("spans", .seq (a.spans.toList.map .span)),
      ("root", refOutline a.last)]

mutual

/-- Outlines of the function literals of an expression, from the left. -/
def Expr.functionOutlines : Expr → List Outline
  | .atom _ _ => []
  | .group inner _ => inner.functionOutlines
  | .sequence parts _ => allFunctionOutlines parts
  | .unary _ operand _ => operand.functionOutlines
  | .binary _ lhs rhs _ => lhs.functionOutlines ++ rhs.functionOutlines
  | .logic _ lhs rhs _ => lhs.functionOutlines ++ rhs.functionOutlines
  | .assign _ target value _ => target.functionOutlines ++ value.functionOutlines
  | .call callee arguments _ => callee.functionOutlines ++ allFunctionOutlines arguments
  | .create type arguments _ => type.functionOutlines ++ allFunctionOutlines arguments
  | .subscript object index _ => object.functionOutlines ++ index.functionOutlines
  | .attr object _ _ => object.functionOutlines
  | .function decl => [decl.outline]
  | .list elements _ => allFunctionOutlines elements
  | .dict entries _ => entryFunctionOutlines entries

def Target.functionOutlines : Target → List Outline
  | .var _ => []
  | .attr object _ _ => object.functionOutlines
  | .subscript object index _ => object.functionOutlines ++ index.functionOutlines

def allFunctionOutlines : List Expr → List Outline
  | [] => []
  | e :: es => e.functionOutlines ++ allFunctionOutlines es

def entryFunctionOutlines : List (Expr × Expr) → List Outline
  | [] => []
  | (key, value) :: es => key.functionOutlines ++ value.functionOutlines ++ entryFunctionOutlines es

def FunctionDecl.outline : FunctionDecl → Outline
  | ⟨name, parameters, body, span⟩ =>
    .record "FunctionDecl"
      [("name", name.outline), ("parameters", .seq (parameters.map Ident.outline)),
        ("body", .seq (outlineAll body)), ("span", .span span)]

def outlineOption : Option Expr → Outline
  | none => .leaf "None"
  | some e => .tagged "Some" [e.arena.outline e.functionOutlines]

def outlineBranch : Option (List Stmt) → Outline
  | none => .leaf "None"
  | some body => .tagged "Some" [.seq (outlineAll body)]

def outlineAll : List Stmt → List Outline
  | [] => []
  | s :: ss => s.outline :: outlineAll ss

def Stmt.outline : Stmt → Outline
  | .functionDecl decl => .tagged "FunctionDecl" [decl.outline]
  | .moduleDecl name body span =>
    .tagged "ModuleDecl" [.record "ModuleDecl"
      [("name", name.outline), ("body", .seq (outlineAll body)), ("span", .span span)]]
  | .classDecl name superclass body span =>
    .tagged "ClassDecl" [.record "ClassDecl"
      [("name", name.outline), ("super_class", outlineOption superclass),
        ("body", .seq (outlineAll body)), ("span", .span span)]]
  | .block body span =>
    .tagged "Body" [.record "BodyStatement" [("body", .seq (outlineAll body)), ("span", .span span)]]
  | .includeFile path span =>
    .tagged "Include" [.record "IncludeStatement" [("path", .text path), ("span", .span span)]]
  | .expr value =>
    .tagged "Expression" [.record "ExpressionStatement"
      [("expr", value.arena.outline value.functionOutlines), ("span", .span value.span)]]
  | .ifElse condition success failure span =>
    .tagged "If" [.record "IfStatement"
      [("condition", condition.arena.outline condition.functionOutlines),
        ("success", .seq (outlineAll success)), ("failure", outlineBranch failure),
        ("span", .span span)]]
  | .loop condition body step testAfter span =>
    .tagged "While" [.record "WhileStatement"
      [("condition", outlineOption condition), ("body", .seq (outlineAll body)),
        ("step", outlineOption step), ("eval_after", .bool testAfter), ("span", .span span)]]
  | .forEach element iterable body span =>
    .tagged "ForEach" [.record "ForEachStatement"
      [("variable", element.outline),
        ("iterable", iterable.arena.outline iterable.functionOutlines),
        ("body", .seq (outlineAll body)), ("span", .span span)]]
  | .breakLoop span => .tagged "Break" [.span span]
  | .continueLoop span => .tagged "Continue" [.span span]
  | .returnValue value span =>
    .tagged "Return" [.record "ReturnStatement"
      [("value", outlineOption value), ("span", .span span)]]

end

def Expr.outline (e : Expr) : Outline := e.arena.outline e.functionOutlines

def Program.outline (p : Program) : Outline := .record "Program" [("statements", .seq (outlineAll p))]

end Rill.Syntax
