import Rill.Arithmetic
import Rill.Machine

/-! Calls, hooks and the operations that consult them.

Everything here takes the evaluator of what it calls, so that it says how calls are used without
saying how they are made. -/
namespace Rill

open Text (Span)
open Eval

/-- How a statement ends. -/
inductive Signal where
  | normal
  | breakLoop
  | continueLoop
  | returned (v : Value)

/-- How calls and included files are run. -/
structure Evaluator where
  settings : Settings
  /-- What becomes of a signal where nothing waits for one: after a body of a class or module, a file
  or a statement of a program, and after a function that did not return. -/
  stray : Signal → Eval Unit
  /-- Looks on as the code gets or sets an attribute of a value. -/
  watch : Value → String → (sets : Bool) → Eval Unit
  /-- How many rounds a loop may take. -/
  fuel : Nat
  /-- Calls a value with arguments from a place in the source. -/
  call : Value → List Value → Span → Eval Value
  /-- Runs statements in a frame. -/
  block : List Syntax.Stmt → Nat → Eval Signal

namespace Evaluator

/-- Binds a function that was found through a receiver to it. -/
def bindMethod (method receiver : Value) : Store.Action Value := do
  match method with
  | .function id =>
    match (← get).functions[id]? with
    | some f => Store.newFunction { f with receiver := some receiver }
    | none => return method
  | .native f | .bound f _ => return .bound f receiver
  | v => return v

/-- The class whose methods a value has. -/
def classOf? (s : Store) : Value → Option Nat
  | .object id => some (s.typeOf id)
  | .list _ => some BuiltinClass.list.number
  | .dict _ => some BuiltinClass.dict.number
  | .str _ => some BuiltinClass.string.number
  | _ => none

/-- The attribute of a value: a field of its own, or one of its class bound to it. -/
def attribute? (object : Value) (name : String) : Store.Action (Option Value) := do
  let s ← get
  match object with
  | .type id => return s.attribute? id name
  | .object id =>
    match s.field? id name with
    | some field => return some field
    | none =>
      match s.attribute? (s.typeOf id) name with
      | some method => return some (← bindMethod method object)
      | none => return none
  | v =>
    match classOf? s v >>= (s.attribute? · name) with
    | some method => return some (← bindMethod method object)
    | none => return none

def getAttribute (object : Value) (name : String) (span : Span) : Eval Value := do
  match object with
  | .module id =>
    match (← store).modules[id]? >>= (·.attributes.get? name) with
    | some v => return v
    | none => raise (.moduleVarNotFound ((← store).moduleName id) name) span
  | _ =>
    match ← attribute? object name with
    | some v => return v
    | none => raise (.attrNotFound ((← store).typeName object) name) span

/-- Only instances can be given attributes. -/
def setAttribute (object : Value) (name : String) (value : Value) (span : Span) : Eval Unit := do
  match object with
  | .object id => Store.setField id name value
  | _ => raise (.readOnly ((← store).typeName object)) span

variable (ev : Evaluator)

def callMethod (object : Value) (name : String) (arguments : List Value) (span : Span) :
    Eval Value := do
  let method ← getAttribute object name span
  ev.call method arguments span

/-- Calls the method `name` of an instance, if there is one. -/
def callHook (id : Nat) (name : String) (arguments : List Value) (span : Span) :
    Eval (Option Value) := do
  match ← attribute? (.object id) name with
  | none => return none
  | some hook => return some (← ev.call hook arguments span)

/-- Whether a value counts as true. An instance says so itself by `__bool__`. -/
def truthy (v : Value) (span : Span) : Eval Bool := do
  match v with
  | .object id =>
    match ← ev.callHook id "__bool__" [] span with
    | some result => return (← store).isTruthy result
    | none => return true
  | _ => return (← store).isTruthy v

/-- An operator on two values. An instance on the left overloads it; without an overload of its own,
`!=` is the negation of `==`. -/
def binary (op : BinaryOp) (lhs rhs : Value) (span : Span) : Eval Value := do
  match lhs with
  | .object id =>
    match ← ev.callHook id op.hook [rhs] span with
    | some result => return result
    | none =>
      if op = .ne then
        let equal ← match ← ev.callHook id BinaryOp.eq.hook [rhs] span with
          | some result => pure result
          | none => attempt (Arithmetic.binary .eq lhs rhs) span
        return .bool (!(← ev.truthy equal span))
      else attempt (Arithmetic.binary op lhs rhs) span
  | _ => attempt (Arithmetic.binary op lhs rhs) span

/-- An operator on one value. Without an overload of its own, `!` is the negation of truth. -/
def unary (op : UnaryOp) (operand : Value) (span : Span) : Eval Value := do
  match operand with
  | .object id =>
    match ← ev.callHook id op.hook [] span with
    | some result => return result
    | none =>
      if op = .bang then return .bool (!(← ev.truthy operand span))
      else attempt (Arithmetic.unary op operand) span
  | _ => attempt (Arithmetic.unary op operand) span

/-- Equality with overloads. -/
def equal (lhs rhs : Value) (span : Span) : Eval Bool := do
  let result ← ev.binary .eq lhs rhs span
  ev.truthy result span

/-- The integer that an argument has to be. -/
def intArgument (v : Value) (what : String) (span : Span) : Eval Int64 := do
  match v with
  | .int i => return i
  | _ => invalid (what ++ " must be an int, not " ++ (← store).typeName v ++ ".") span

def notSubscriptable {α : Type} (object : Value) (span : Span) : Eval α := do
  raise (.notSubscriptable ((← store).typeName object)) span

/-- The character at an index. -/
def charAt (s : String) (index : Int64) : Store.Attempt Value := do
  let cs := s.toList
  let position ← Store.resolveIndex index cs.length
  match cs[position]? with
  | some c => return .str (String.ofList [c])
  | none => throw .defect

def getItem (object index : Value) (span : Span) : Eval Value := do
  match object with
  | .list id =>
    let i ← intArgument index "List index" span
    attempt (Store.listGet id i) span
  | .dict id => attempt (Store.dictGet id index) span
  | .str s =>
    let i ← intArgument index "String index" span
    attempt (charAt s i) span
  | .object id =>
    match ← ev.callHook id "__getitem__" [index] span with
    | some v => return v
    | none => notSubscriptable object span
  | _ => notSubscriptable object span

def setItem (object index value : Value) (span : Span) : Eval Unit := do
  match object with
  | .list id =>
    let i ← intArgument index "List index" span
    attempt (Store.listSet id i value) span
  | .dict id => attempt (Store.dictSet id index value) span
  | .object id =>
    match ← ev.callHook id "__setitem__" [index, value] span with
    | some _ => return ()
    | none => notSubscriptable object span
  | _ => notSubscriptable object span

def iterate (v : Value) (span : Span) : Eval Value := ev.callMethod v "iter" [] span

/-- The next element of an iterator, or nothing at its end. -/
def advance (iterator : Value) (span : Span) : Eval (Option Value) := do
  match ← ev.callMethod iterator "next" [] span with
  | .item _ inner => return some inner
  | .null => return none
  | other => raise (.invalidIteratorItem ((← store).typeName other)) span

/-- The text that a rendering hook gave: a string as it is, all else rendered without hooks. -/
def hookText (v : Value) : Eval String := do
  match v with
  | .str s => return s
  | _ => return (← store).display v

/-- The text of an instance: by `__repr__` if quotes are asked for, else by `__str__`. -/
def instanceText (id : Nat) (quoted : Bool) (span : Span) : Eval String := do
  let named ← if quoted then ev.callHook id "__repr__" [] span else pure none
  match named with
  | some text => hookText text
  | none =>
    match ← ev.callHook id "__str__" [] span with
    | some text => hookText text
    | none => return (← store).instanceText id

/-- Rendering with the program's own renderings of instances. -/
def renderer (span : Span) : Renderer Eval where
  list id := do return (← store).list id
  dict id := do return (← store).dict id
  object id quoted := ev.instanceText id quoted span
  named v := do return (← store).named v
  tooDeep := outOfFuel

/-- The text of a value. -/
def text (quoted : Bool) (v : Value) (span : Span) : Eval String :=
  (ev.renderer span).value ((ev.renderer span).container ev.fuel []) quoted v

/-- Raises an instance. Its message is its text; an exception on the way to it is dropped. -/
def raiseInstance {α : Type} (id : Nat) (span : Span) : Eval α := do
  let message ← messageText
  let m ← get
  throw (.exception
    { payload := id, className := m.store.instanceClassName id, message, span
      traceback := m.calls, cause := none })
where
  /-- The message, where only exceptions are caught. -/
  messageText : Eval String := fun m =>
    match ev.instanceText id false span m with
    | .error (.exception _) m => .ok (m.store.instanceText id) m
    | result => result

/-- Makes an instance and runs its initializer. -/
def instantiate (type : Nat) (arguments : List Value) (span : Span) : Eval Value := do
  if type = BuiltinClass.list.number then Store.newList arguments.toArray
  else if type = BuiltinClass.dict.number then
    if arguments.isEmpty then Store.newDict Table.empty else tooMany
  else
    let object := Value.object (← Store.newInstance type Table.empty)
    match (← store).attribute? type "__init__" with
    | some initializer =>
      let method ← bindMethod initializer object
      let _ ← ev.call method arguments span
      return object
    | none => if arguments.isEmpty then return object else tooMany
where
  /-- Fails because no arguments are expected. -/
  tooMany : Eval Value := do
    raise (.argCount ((← store).className type) "0" arguments.length) span

end Evaluator
end Rill
