import Rill.Eval.Tree
import Rill.Syntax.Arena

/-! The meaning of tables of nodes, where operands are looked up by their numbers. -/
namespace Rill.Syntax.Arena

open Text (Span)
open Eval

/-- The node with a number and its place, both of which have to be there. -/
def lookUp (a : Arena) (ref : Nat) : Eval (Node × Span) :=
  match a.node? ref, a.span? ref with
  | some node, some span => return (node, span)
  | _, _ => defect

/-- The function literal with a number, which has to be there. -/
def literal (a : Arena) (number : Nat) : Eval FunctionDecl :=
  match a.functions[number]? with
  | some decl => return decl
  | none => defect

variable (ev : Evaluator) (env : Nat)

/-- Assigns what `value` gives to a target whose operands `operand` evaluates. -/
def assign (operand : Nat → Eval Value) (op : AssignOp) (value : Eval Value) (span : Span) :
    TargetNode → Eval Value
  | .var name => do
    let v ← combine ev op (readVariable env name.name name.span) value span
    writeVariable ev.settings env name.name v
    return v
  | .attr object name => do
    let o ← operand object
    ev.watch o name.name true
    let v ← combine ev op (Evaluator.getAttribute o name.name span) value span
    Evaluator.setAttribute o name.name v span
    return v
  | .subscript object index => do
    let o ← operand object
    let i ← operand index
    let v ← combine ev op (ev.getItem o i span) value span
    ev.setItem o i v span
    return v

/-- The value of one node whose operands `operand` evaluates. -/
def evalNode (a : Arena) (operand : Nat → Eval Value) (span : Span) : Node → Eval Value
  | .atom x place => x.eval env place
  | .group inner => operand inner
  | .sequence parts => parts.foldlM (fun _ ref => operand ref) .null
  | .unary op ref => do
    let v ← operand ref
    ev.unary op v span
  | .binary op lhs rhs => do
    let l ← operand lhs
    let r ← operand rhs
    ev.binary op l r span
  | .logic op lhs rhs => do
    let l ← operand lhs
    if op.settles (← ev.truthy l span) then return l else operand rhs
  | .assign op target value => assign ev env operand op (operand value) span target
  | .call callee arguments => do
    let f ← operand callee
    let values ← arguments.mapM operand
    ev.call f values span
  | .create type arguments => do
    let type ← operand type
    let values ← arguments.mapM operand
    createInstance ev type values span
  | .subscript object index => do
    let o ← operand object
    let i ← operand index
    ev.getItem o i span
  | .attr object name => do
    let o ← operand object
    ev.watch o name.name false
    Evaluator.getAttribute o name.name span
  | .function number => do
    let decl ← a.literal number
    decl.close env
  | .list elements => do
    let values ← elements.mapM operand
    Store.newList values.toArray
  | .dict entries => do
    let table ← entries.foldlM (fun table (key, value) => do
      let k ← operand key
      let v ← operand value
      let k ← attempt (Store.key k) span
      return table.put k v) Table.empty
    Store.newDict table

/-- The value of the node with a number, if operators are inside each other at most `depth` deep. -/
def evalAt (a : Arena) : (depth : Nat) → (ref : Nat) → Eval Value
  | 0, _ => defect
  | depth + 1, ref => do
    let (node, span) ← a.lookUp ref
    evalNode ev env a (a.evalAt depth) span node

/-- The value of a table, which is that of its last node. -/
def eval (a : Arena) : Eval Value := a.evalAt ev env a.nodes.size a.last

end Rill.Syntax.Arena
