import Rill.Eval.Evaluator
import Rill.Syntax.Grammar
import Rill.Syntax.Placement

/-! The meaning of expressions and statements. -/
namespace Rill.Syntax

open Text (Span)
open Eval

/-- The value of a variable. -/
def readVariable (env : Nat) (name : String) (span : Span) : Eval Value := do
  match (← store).read? env name with
  | some v => return v
  | none => raise (.varNotFound name) span

/-- Assigns to a variable. In the body of a class or module this binds there; otherwise it writes the
nearest variable of that name, or binds a new one, or binds in the outermost frame if so set. -/
def writeVariable (settings : Settings) (env : Nat) (name : String) (value : Value) : Eval Unit := do
  if (← store).isNamespace env then Store.bind env name value
  else if settings.globalAssignment then Store.bind globals name value
  else if !(← Store.assign env name value) then Store.bind env name value

def Atom.eval (env : Nat) (span : Span) : Atom → Eval Value
  | .int i => return .int i
  | .float x => return .float x
  | .bool b => return .bool b
  | .null => return .null
  | .string s => return .str s
  | .var name => readVariable env name span

/-- The function that a declaration makes where it stands. -/
def FunctionDecl.close (decl : FunctionDecl) (env : Nat) : Store.Action Value := do
  let closure ← Store.capture env
  Store.newFunction ⟨decl, closure, none, false⟩

/-- Declares a function. Its name is bound first, so that the function sees itself. -/
def FunctionDecl.declare (settings : Settings) (decl : FunctionDecl) (env : Nat) : Eval Unit := do
  let home := if settings.globalAssignment && !(← store).isNamespace env then globals else env
  Store.bind home decl.name.name .null
  let function ← decl.close env
  Store.bind home decl.name.name function

/-- Functions in the body of a class become methods. -/
def methodOf (v : Value) : Store.Action Value := do
  match v with
  | .function id =>
    match (← get).functions[id]? with
    | some f => Store.newFunction { f with isMethod := true }
    | none => return v
  | v => return v

/-- Makes a class of what its body has bound. -/
def harvestClass (env body : Nat) (name : String) (superclass : Nat) : Store.Action Unit := do
  let attributes ← ((← get).bindings body).mapM fun (key, v) => do return (key, ← methodOf v)
  let type ← Store.newClass ⟨name, Table.ofList attributes, some superclass⟩
  Store.bind env name type

/-- Makes a module of what its body has bound. -/
def harvestModule (env body : Nat) (name : String) : Store.Action Unit := do
  let module ← Store.newModule ⟨name, Table.ofList ((← get).bindings body)⟩
  Store.bind env name module

/-- The class that a class derives from. -/
def superclassOf (v : Value) (span : Span) : Eval Nat := do
  match v with
  | .type id => return id
  | _ => raise (.invalidSuperclass ((← store).typeName v)) span

/-- The program of a file to include, or the reason why there is none. -/
def included (settings : Settings) (path : String) : Except String Program := do
  let source ← settings.source path
  match parse source with
  | .error e => .error e.fault.message
  | .ok program =>
    match Program.check program with
    | .error e => .error e.fault.message
    | .ok _ => .ok program

/-- Runs a file in a frame. A file cannot be included while it is being included. -/
def includeFile (ev : Evaluator) (env : Nat) (path : String) (span : Span) : Eval Unit := do
  if (← get).includes.contains path then raise (.includeError path "circular include") span
  else
    match included ev.settings path with
    | .error reason => raise (.includeError path reason) span
    | .ok program =>
      let signal ← inInclude path (ev.block program env)
      ev.stray signal

/-- Makes an instance of a class. -/
def createInstance (ev : Evaluator) (type : Value) (arguments : List Value) (span : Span) :
    Eval Value := do
  match type with
  | .type id => ev.instantiate id arguments span
  | other => invalid ("`new` expects a class but got " ++ (← store).typeName other ++ ".") span

/-- Repeats `body` while `test` holds, with `step` after each round. Without `check` the first round
is not tested. -/
def whileLoop (test : Eval Bool) (body : Eval Signal) (step : Eval Unit) :
    (fuel : Nat) → (check : Bool) → Eval Signal
  | 0, _ => outOfFuel
  | fuel + 1, check => do
    if ← (if check then test else pure true) then
      match ← body with
      | .breakLoop => return .normal
      | .returned v => return .returned v
      | _ =>
        step
        whileLoop test body step fuel true
    else return .normal

/-- Repeats `body` for the values that `next` gives, each stored by `bind`. -/
def forLoop (next : Eval (Option Value)) (bind : Value → Eval Unit) (body : Eval Signal) :
    (fuel : Nat) → Eval Signal
  | 0 => outOfFuel
  | fuel + 1 => do
    match ← next with
    | none => return .normal
    | some v =>
      bind v
      match ← body with
      | .breakLoop => return .normal
      | .returned v => return .returned v
      | _ => forLoop next bind body fuel

/-- What an assignment stores: the new value, or that of an operator on the old value and it. -/
def combine (ev : Evaluator) (op : AssignOp) (old value : Eval Value) (span : Span) : Eval Value := do
  match op with
  | .plain => value
  | .inPlace op =>
    let current ← old
    let v ← value
    ev.binary op current v span

mutual

/-- The value of an expression in a frame. -/
def Expr.eval (ev : Evaluator) (env : Nat) : Expr → Eval Value
  | .atom a span => a.eval env span
  | .group inner _ => inner.eval ev env
  | .sequence parts _ => evalLast ev env .null parts
  | .unary op operand span => do
    let v ← operand.eval ev env
    ev.unary op v span
  | .binary op lhs rhs span => do
    let l ← lhs.eval ev env
    let r ← rhs.eval ev env
    ev.binary op l r span
  | .logic op lhs rhs span => do
    let l ← lhs.eval ev env
    if op.settles (← ev.truthy l span) then return l else rhs.eval ev env
  | .assign op target value span => target.assign ev env op (value.eval ev env) span
  | .call callee arguments span => do
    let f ← callee.eval ev env
    let values ← evalAll ev env arguments
    ev.call f values span
  | .create type arguments span => do
    let type ← type.eval ev env
    let values ← evalAll ev env arguments
    createInstance ev type values span
  | .subscript object index span => do
    let o ← object.eval ev env
    let i ← index.eval ev env
    ev.getItem o i span
  | .attr object name span => do
    let o ← object.eval ev env
    ev.watch o name.name false
    Evaluator.getAttribute o name.name span
  | .function decl => decl.close env
  | .list elements _ => do
    let values ← evalAll ev env elements
    Store.newList values.toArray
  | .dict entries span => do
    let table ← evalEntries ev env span Table.empty entries
    Store.newDict table

/-- Assigns what `value` gives to a target. The parts of the target come before the value, and so
does its old value if that is needed. -/
def Target.assign (ev : Evaluator) (env : Nat) (op : AssignOp) (value : Eval Value) (span : Span) :
    Target → Eval Value
  | .var name => do
    let v ← combine ev op (readVariable env name.name name.span) value span
    writeVariable ev.settings env name.name v
    return v
  | .attr object name _ => do
    let o ← object.eval ev env
    ev.watch o name.name true
    let v ← combine ev op (Evaluator.getAttribute o name.name span) value span
    Evaluator.setAttribute o name.name v span
    return v
  | .subscript object index _ => do
    let o ← object.eval ev env
    let i ← index.eval ev env
    let v ← combine ev op (ev.getItem o i span) value span
    ev.setItem o i v span
    return v

/-- The values of expressions, from the left. -/
def evalAll (ev : Evaluator) (env : Nat) : List Expr → Eval (List Value)
  | [] => return []
  | e :: es => do
    let v ← e.eval ev env
    let vs ← evalAll ev env es
    return v :: vs

/-- The value of the last of some expressions, all of which are evaluated. -/
def evalLast (ev : Evaluator) (env : Nat) (last : Value) : List Expr → Eval Value
  | [] => return last
  | e :: es => do
    let v ← e.eval ev env
    evalLast ev env v es

/-- The entries of a dict. A later entry with the same key replaces the value of the earlier. -/
def evalEntries (ev : Evaluator) (env : Nat) (span : Span) (table : Table Key Value) :
    List (Expr × Expr) → Eval (Table Key Value)
  | [] => return table
  | (key, value) :: es => do
    let k ← key.eval ev env
    let v ← value.eval ev env
    let k ← attempt (Store.key k) span
    evalEntries ev env span (table.put k v) es

end

def evalOption (ev : Evaluator) (env : Nat) : Option Expr → Eval Value
  | none => return .null
  | some e => e.eval ev env

/-- Whether a condition holds. A missing one always does. -/
def holds (ev : Evaluator) (env : Nat) : Option Expr → Eval Bool
  | none => return true
  | some e => do
    let v ← e.eval ev env
    ev.truthy v e.span

/-- The class that a declaration names to derive from. -/
def evalSuperclass (ev : Evaluator) (env : Nat) : Option Expr → Eval Nat
  | none => return BuiltinClass.object.number
  | some e => do
    let v ← e.eval ev env
    superclassOf v e.span

mutual

/-- Runs a statement in a frame. -/
def Stmt.exec (ev : Evaluator) (env : Nat) : Stmt → Eval Signal
  | .functionDecl decl => do
    decl.declare ev.settings env
    return .normal
  | .moduleDecl name body _ => do
    let inner ← Store.newNamespace env
    ev.stray (← execAll ev inner body)
    harvestModule env inner name.name
    return .normal
  | .classDecl name superclass body _ => do
    let parent ← evalSuperclass ev env superclass
    let inner ← Store.newNamespace env
    ev.stray (← execAll ev inner body)
    harvestClass env inner name.name parent
    return .normal
  | .block body _ => execAll ev env body
  | .includeFile path span => do
    includeFile ev env path span
    return .normal
  | .expr value => do
    let _ ← value.eval ev env
    return .normal
  | .ifElse condition success failure _ => do
    if ← holds ev env (some condition) then execAll ev env success else execBranch ev env failure
  | .loop condition body step testAfter _ =>
    whileLoop (holds ev env condition) (execAll ev env body)
      (do let _ ← evalOption ev env step) ev.fuel (!testAfter)
  | .forEach element iterable body _ => do
    let v ← iterable.eval ev env
    let iterator ← ev.iterate v iterable.span
    forLoop (ev.advance iterator iterable.span) (fun v => Store.bind env element.name v)
      (execAll ev env body) ev.fuel
  | .breakLoop _ => return .breakLoop
  | .continueLoop _ => return .continueLoop
  | .returnValue value _ => do return .returned (← evalOption ev env value)

def execBranch (ev : Evaluator) (env : Nat) : Option (List Stmt) → Eval Signal
  | none => return .normal
  | some body => execAll ev env body

/-- Runs statements one after another, up to the first that does not end normally. -/
def execAll (ev : Evaluator) (env : Nat) : List Stmt → Eval Signal
  | [] => return .normal
  | s :: ss => do
    match ← s.exec ev env with
    | .normal => execAll ev env ss
    | signal => return signal

end

end Rill.Syntax
