import Rill.Syntax.Tree

/-! Expressions as tables of nodes, operands before operators. -/
namespace Rill.Syntax

open Text (Span)

/-- The place an assignment writes to, with operands given by their numbers. -/
inductive TargetNode where
  | var (name : Ident)
  | attr (object : Nat) (name : Ident)
  | subscript (object index : Nat)

/-- One operator of an expression, with operands given by their numbers in the table. -/
inductive Node where
  | atom (a : Atom) (span : Span)
  | group (inner : Nat)
  | sequence (parts : List Nat)
  | unary (op : UnaryOp) (operand : Nat)
  | binary (op : BinaryOp) (lhs rhs : Nat)
  | logic (op : LogicOp) (lhs rhs : Nat)
  | assign (op : AssignOp) (target : TargetNode) (value : Nat)
  | call (callee : Nat) (arguments : List Nat)
  | create (type : Nat) (arguments : List Nat)
  | subscript (object index : Nat)
  | attr (object : Nat) (name : Ident)
  /-- The function literal with this number, counted from the left. -/
  | function (number : Nat)
  | list (elements : List Nat)
  | dict (entries : List (Nat × Nat))

/-- What a node becomes when it is assigned to. -/
def Node.target? : Node → Option TargetNode
  | atom (.var name) span => some (.var ⟨name, span⟩)
  | attr object name => some (.attr object name)
  | subscript object index => some (.subscript object index)
  | _ => none

/-- The nodes of an expression, their places in a table of their own, and the function literals of
the expression from the left. -/
structure Arena where
  nodes : Array Node
  spans : Array Span
  functions : Array FunctionDecl

namespace Arena

def empty : Arena := ⟨#[], #[], #[]⟩

/-- The number of the node placed last. -/
def last (a : Arena) : Nat := a.nodes.size - 1

/-- The node with this number. -/
def node? (a : Arena) (k : Nat) : Option Node := a.nodes[k]?

/-- The place of the node with this number. -/
def span? (a : Arena) (k : Nat) : Option Span := a.spans[k]?

def push (a : Arena) (node : Node) (span : Span) : Arena :=
  { a with nodes := a.nodes.push node, spans := a.spans.push span }

def pushFunction (a : Arena) (decl : FunctionDecl) : Arena :=
  { nodes := a.nodes.push (.function a.functions.size)
    spans := a.spans.push decl.span
    functions := a.functions.push decl }

end Arena

mutual

/-- Places the nodes of an expression after those of `a`, its own node last. -/
def Expr.place (a : Arena) : Expr → Arena
  | .atom x span => a.push (.atom x span) span
  | .group inner span =>
    let a := inner.place a
    a.push (.group a.last) span
  | .sequence parts span =>
    let (a, refs) := placeAll a parts
    a.push (.sequence refs) span
  | .unary op operand span =>
    let a := operand.place a
    a.push (.unary op a.last) span
  | .binary op lhs rhs span =>
    let l := lhs.place a
    let r := rhs.place l
    r.push (.binary op l.last r.last) span
  | .logic op lhs rhs span =>
    let l := lhs.place a
    let r := rhs.place l
    r.push (.logic op l.last r.last) span
  | .assign op target value span =>
    let (a, node) := target.place a
    let a := value.place a
    a.push (.assign op node a.last) span
  | .call callee arguments span =>
    let c := callee.place a
    let (a, refs) := placeAll c arguments
    a.push (.call c.last refs) span
  | .create type arguments span =>
    let c := type.place a
    let (a, refs) := placeAll c arguments
    a.push (.create c.last refs) span
  | .subscript object index span =>
    let o := object.place a
    let i := index.place o
    i.push (.subscript o.last i.last) span
  | .attr object name span =>
    let a := object.place a
    a.push (.attr a.last name) span
  | .function decl => a.pushFunction decl
  | .list elements span =>
    let (a, refs) := placeAll a elements
    a.push (.list refs) span
  | .dict entries span =>
    let (a, refs) := placeEntries a entries
    a.push (.dict refs) span

/-- Places a target as the expression it was read as. -/
def Target.place (a : Arena) : Target → Arena × TargetNode
  | .var name => (a.push (.atom (.var name.name) name.span) name.span, .var name)
  | .attr object name span =>
    let a := object.place a
    (a.push (.attr a.last name) span, .attr a.last name)
  | .subscript object index span =>
    let o := object.place a
    let i := index.place o
    (i.push (.subscript o.last i.last) span, .subscript o.last i.last)

def placeAll (a : Arena) : List Expr → Arena × List Nat
  | [] => (a, [])
  | e :: es =>
    let a := e.place a
    let (b, refs) := placeAll a es
    (b, a.last :: refs)

def placeEntries (a : Arena) : List (Expr × Expr) → Arena × List (Nat × Nat)
  | [] => (a, [])
  | (key, value) :: es =>
    let k := key.place a
    let v := value.place k
    let (b, refs) := placeEntries v es
    (b, (k.last, v.last) :: refs)

end

/-- The table of an expression. It is also built as the expression is read (`Builder.table`). -/
def Expr.arena (e : Expr) : Arena := e.place Arena.empty

/-- The function literals of an expression from the left, without those inside their bodies. -/
def Expr.functions (e : Expr) : List FunctionDecl := e.arena.functions.toList

end Rill.Syntax
