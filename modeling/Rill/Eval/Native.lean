import Rill.Decimal.Reader
import Rill.Eval.Evaluator
import Rill.Text.Blank
import Rill.Text.CaseMap

/-! What the built-in functions and the functions of the host do. -/
namespace Rill.Evaluator

open Text (Span)
open Eval

/-- The argument at a position, which has to be there. -/
def argument (arguments : List Value) (position : Nat) : Eval Value :=
  match arguments[position]? with
  | some v => return v
  | none => defect

def invalidReceiver {α : Type} (expected : String) (actual : Option Value) (span : Span) :
    Eval α := do
  let s ← store
  let actual := (actual.map s.typeName).getD "nothing"
  invalid ("Expected a " ++ expected ++ " receiver but got " ++ actual ++ ".") span

def thisList (arguments : List Value) (span : Span) : Eval Nat := do
  match arguments.head? with
  | some (.list id) => return id
  | other => invalidReceiver "list" other span

def thisDict (arguments : List Value) (span : Span) : Eval Nat := do
  match arguments.head? with
  | some (.dict id) => return id
  | other => invalidReceiver "dict" other span

def thisString (arguments : List Value) (span : Span) : Eval String := do
  match arguments.head? with
  | some (.str s) => return s
  | other => invalidReceiver "string" other span

def thisInstance (arguments : List Value) (span : Span) : Eval Nat := do
  match arguments.head? with
  | some (.object id) => return id
  | other => invalidReceiver "instance" other span

/-- An iterator over the given elements. -/
def newIterator (elements : Array Value) : Eval Value := do
  let items ← Store.newList elements
  let id ← Store.newInstance BuiltinClass.listIterator.number
    (Table.ofList [("__items__", items), ("__index__", .int 0)])
  return .object id

/-- The integers `start`, `start + step`, …, as many as `count`, cut down to words. There are none if
128 bits are not enough on the way. -/
def progression (start step : Int) (count : Nat) : Option (Array Int64) :=
  (Array.range count).mapM fun (k : Nat) => do
    let offset ← Exact.wide? (k * step)
    let term ← Exact.wide? (start + offset)
    return Int64.ofInt term

/-- How many terms of a progression lie before `stop`, for a step that is not zero: the distance over
the step, rounded up. There is no number if 128 bits are not enough on the way. -/
def progressionLength (start stop step : Int) : Option Int := do
  let count ←
    if 0 < step then do
      let distance ← Exact.wide? (stop - start)
      let reach ← Exact.wide? (distance + step)
      let last ← Exact.wide? (reach - 1)
      Exact.wide? (last.tdiv step)
    else do
      let distance ← Exact.wide? (start - stop)
      let reach ← Exact.wide? (distance - step)
      let last ← Exact.wide? (reach - 1)
      let stride ← Exact.wide? (-step)
      Exact.wide? (last.tdiv stride)
  return max count 0

def rangeOf (start stop step : Int64) (span : Span) : Eval Value := do
  if step = 0 then invalid "Range step must not be zero." span
  else
    match progressionLength start.toInt stop.toInt step.toInt with
    | none => defect
    | some count =>
      if (Arithmetic.maxLength : Int) < count then raise (.overflow "range") span
      else
        match progression start.toInt step.toInt count.toNat with
        | none => defect
        | some terms => Store.newList (terms.map .int)

def range (arguments : List Value) (span : Span) : Eval Value := do
  let bounds ← arguments.mapM (intArgument · "Range bound" span)
  match bounds with
  | [stop] => rangeOf 0 stop 1 span
  | [start, stop] => rangeOf start stop 1 span
  | [start, stop, step] => rangeOf start stop step span
  | _ => defect

def isInstance (v type : Value) (span : Span) : Eval Value := do
  let s ← store
  match type with
  | .type ancestor => return .bool ((classOf? s v).any (s.derivesFrom · ancestor))
  | other => invalid ("isinstance expects a class but got " ++ s.typeName other ++ ".") span

def toInt (v : Value) (span : Span) : Eval Value := do
  match v with
  | .int i => return .int i
  | .bool b => return .int (if b then 1 else 0)
  | .float x =>
    if !x.isNaN && !x.isInfinite && x.truncate.natAbs < 0x8000000000000000 then
      return .int (Int64.ofInt x.truncate)
    else unconvertible
  | .str s =>
    match Decimal.readInt64? (Text.trim s) with
    | some i => return .int i
    | none => invalid ("Invalid literal for int: " ++ (← store).repr v ++ ".") span
  | _ => unconvertible
where
  /-- Fails because the value is no integer in any way. -/
  unconvertible : Eval Value := do
    invalid ("Can't convert " ++ (← store).repr v ++ " to int.") span

def toFloat (v : Value) (span : Span) : Eval Value := do
  match v with
  | .int i => return .float (Binary64.ofInt64 i)
  | .float x => return .float x
  | .bool b => return .float (Binary64.ofInt64 (if b then 1 else 0))
  | .str s =>
    match Decimal.read? (Text.trim s) with
    | some x => return .float x
    | none => invalid ("Invalid literal for float: " ++ (← store).repr v ++ ".") span
  | _ => invalid ("Can't convert " ++ (← store).typeName v ++ " to float.") span

/-- Ends the program with a code. -/
def exit (arguments : List Value) (span : Span) : Eval Value := do
  let code ← match arguments.head? with
    | none => pure 0
    | some code => intArgument code "Exit code" span
  let code := code.toInt
  if Int32.minValue.toInt ≤ code ∧ code ≤ Int32.maxValue.toInt then throw (.exit code)
  else invalid ("Exit code " ++ toString code ++ " is out of range.") span

/-- The pieces of `cs` between the separators, where `piece` holds the current one in reverse. -/
def splitFrom (separator : List Char) (piece : List Char) : List Char → List String
  | [] => [String.ofList piece.reverse]
  | c :: cs =>
    if separator.isPrefixOf (c :: cs) then
      String.ofList piece.reverse :: splitFrom separator [] (cs.drop (separator.length - 1))
    else splitFrom separator (c :: piece) cs
termination_by cs => cs.length
decreasing_by
  · simp only [List.length_drop, List.length_cons]
    omega
  · simp

/-- The words of a text, or its pieces between separators. -/
def split (s : String) (separator : Value) (span : Span) : Eval Value := do
  let parts ← match separator with
    | .null => pure (Text.words s)
    | .str separator =>
      if separator.isEmpty then invalid "Empty separator." span
      else pure (splitFrom separator.toList [] s.toList)
    | other => do
      invalid ("Separator must be a string, not " ++ (← store).typeName other ++ ".") span
  Store.newList (parts.map Value.str).toArray

/-- The characters of a text, each as a text. -/
def characters (s : String) : Array Value :=
  (s.toList.map fun c => Value.str (String.ofList [c])).toArray

/-- One step of a list iterator, which keeps its elements and its position in fields. -/
def iteratorNext (this : Nat) (span : Span) : Eval Value := do
  let s ← store
  match s.field? this "__items__", s.field? this "__index__" with
  | some (.list items), some (.int index) =>
    if (s.list items).size ≤ index.toInt then return .null
    else
      let element ← attempt (Store.listGet items index) span
      Store.setField this "__index__" (.int (index + 1))
      Store.newItem element
  | _, _ => invalidReceiver "list iterator" (some (.object this)) span

variable (ev : Evaluator)

def print (arguments : List Value) (span : Span) : Eval Value := do
  let parts ← arguments.mapM (ev.text false · span)
  Eval.print (" ".intercalate parts)
  return .null

def raiseValue (v : Value) (span : Span) : Eval Value := do
  let s ← store
  match v with
  | .str message =>
    let id ← Store.newInstance BuiltinClass.exception.number
      (Table.ofList [("message", .str message)])
    ev.raiseInstance id span
  | .object id =>
    if s.derivesFrom (s.typeOf id) BuiltinClass.exception.number then ev.raiseInstance id span
    else refuse s
  | _ => refuse s
where
  /-- Fails because the value is no exception. -/
  refuse (s : Store) : Eval Value :=
    invalid ("raise expects an Exception instance or a message but got " ++ s.typeName v ++ ".") span

/-- Whether one of the elements is equal to `v`. -/
def containsEqual (v : Value) (span : Span) : List Value → Eval Bool
  | [] => return false
  | x :: xs => do if ← ev.equal x v span then return true else containsEqual v span xs

/-- The results of calling `f` on each element, after those of `done`. -/
def mapCalls (f : Value) (span : Span) (done : Array Value) : List Value → Eval (Array Value)
  | [] => return done
  | x :: xs => do
    let y ← ev.call f [x] span
    mapCalls f span (done.push y) xs

/-- The elements on which `f` gives something that counts as true, after those of `kept`. -/
def filterCalls (f : Value) (span : Span) (kept : Array Value) : List Value → Eval (Array Value)
  | [] => return kept
  | x :: xs => do
    let verdict ← ev.call f [x] span
    if ← ev.truthy verdict span then filterCalls f span (kept.push x) xs
    else filterCalls f span kept xs

/-- Combines the elements one after another with what came before. -/
def foldCalls (f : Value) (span : Span) (acc : Value) : List Value → Eval Value
  | [] => return acc
  | x :: xs => do
    let acc ← ev.call f [acc, x] span
    foldCalls f span acc xs

/-- Combines the elements from the left, beginning with `initial` or else with the first. -/
def reduce (f : Value) (initial : Option Value) (elements : List Value) (span : Span) :
    Eval Value :=
  match initial, elements with
  | some acc, xs => ev.foldCalls f span acc xs
  | none, x :: xs => ev.foldCalls f span x xs
  | none, [] => invalid "reduce of an empty list needs an initial value." span

def exceptionMethod (f : ExceptionMethod) (arguments : List Value) (span : Span) : Eval Value := do
  let this ← thisInstance arguments span
  match f with
  | .init =>
    Store.setField this "message" (arguments[1]?.getD .null)
    return .null
  | .str =>
    match (← store).field? this "message" with
    | none | some .null => return .str ""
    | some message => return .str (← ev.text false message span)

def listMethod (f : ListMethod) (arguments : List Value) (span : Span) : Eval Value := do
  let this ← thisList arguments span
  match f with
  | .get =>
    let index ← intArgument (← argument arguments 1) "List index" span
    attempt (Store.listGet this index) span
  | .set =>
    let index ← intArgument (← argument arguments 1) "List index" span
    attempt (Store.listSet this index (← argument arguments 2)) span
    return .null
  | .length => return .int (Int64.ofNat ((← store).list this).size)
  | .push =>
    attempt (Store.listPush this (← argument arguments 1)) span
    return .null
  | .insert =>
    let index ← intArgument (← argument arguments 1) "List index" span
    attempt (Store.listInsert this index (← argument arguments 2)) span
    return .null
  | .remove =>
    let index ← intArgument (← argument arguments 1) "List index" span
    attempt (Store.listRemove this index) span
  | .pop => attempt (Store.listPop this) span
  | .contains =>
    let v ← argument arguments 1
    return .bool (← ev.containsEqual v span ((← store).list this).toList)
  | .map =>
    let f ← argument arguments 1
    let mapped ← ev.mapCalls f span #[] ((← store).list this).toList
    Store.newList mapped
  | .filter =>
    let f ← argument arguments 1
    let kept ← ev.filterCalls f span #[] ((← store).list this).toList
    Store.newList kept
  | .reduce =>
    let f ← argument arguments 1
    ev.reduce f arguments[2]? ((← store).list this).toList span
  | .iter => newIterator ((← store).list this)

def dictMethod (f : DictMethod) (arguments : List Value) (span : Span) : Eval Value := do
  let this ← thisDict arguments span
  match f with
  | .get =>
    let key ← argument arguments 1
    match arguments[2]? with
    | some fallback => return (← attempt (Store.dictGet? this key) span).getD fallback
    | none => attempt (Store.dictGet this key) span
  | .set =>
    attempt (Store.dictSet this (← argument arguments 1) (← argument arguments 2)) span
    return .null
  | .length => return .int (Int64.ofNat ((← store).dict this).size)
  | .remove => attempt (Store.dictRemove this (← argument arguments 1)) span
  | .contains => return .bool (← attempt (Store.dictContains this (← argument arguments 1)) span)
  | .keys => Store.newList (← Store.dictKeys this)
  | .values => Store.newList (← Store.dictValues this)
  | .iter => newIterator (← Store.dictKeys this)

def stringMethod (f : StringMethod) (arguments : List Value) (span : Span) : Eval Value := do
  let this ← thisString arguments span
  match f with
  | .length => return .int (Int64.ofNat this.length)
  | .upper => return .str (Text.toUpper this)
  | .lower => return .str (Text.toLower this)
  | .split => split this (arguments[1]?.getD .null) span
  | .iter => newIterator (characters this)

def iteratorMethod (f : IteratorMethod) (arguments : List Value) (span : Span) : Eval Value := do
  let this ← thisInstance arguments span
  match f with
  | .next => iteratorNext this span
  | .iter => return .object this

def globalFunction (f : GlobalFunction) (arguments : List Value) (span : Span) : Eval Value := do
  match f with
  | .print => ev.print arguments span
  | .str => return .str (← ev.text false (← argument arguments 0) span)
  | .dump => return .str (← ev.text true (← argument arguments 0) span)
  | .len => ev.callMethod (← argument arguments 0) "length" [] span
  | .iter => ev.iterate (← argument arguments 0) span
  | .next => ev.callMethod (← argument arguments 0) "next" [] span
  | .item => Store.newItem (← argument arguments 0)
  | .raise => ev.raiseValue (← argument arguments 0) span
  | .exit => exit arguments span
  | .range => range arguments span
  | .type => return .str ((← store).typeName (← argument arguments 0))
  | .isinstance =>
    let type ← argument arguments 1
    isInstance (← argument arguments 0) type span
  | .int => toInt (← argument arguments 0) span
  | .float => toFloat (← argument arguments 0) span

/-- Runs a built-in function on arguments of a number that it accepts. -/
def builtin (b : Builtin) (arguments : List Value) (span : Span) : Eval Value :=
  match b with
  | .global f => ev.globalFunction f arguments span
  | .exception f => ev.exceptionMethod f arguments span
  | .list f => ev.listMethod f arguments span
  | .dict f => dictMethod f arguments span
  | .string f => stringMethod f arguments span
  | .iterator f => iteratorMethod f arguments span

/-- Runs a function of the host. What it fails with becomes an exception. -/
def hostCall (h : HostRef) (arguments : List Value) (span : Span) : Eval Value := do
  match ev.settings.hosts[h.number]? with
  | none => return .null
  | some f =>
    let s ← store
    match ← (f.run (arguments.map (HostValue.ofValue s))).onStore with
    | .ok result => attempt result.toValue span
    | .error message => invalid message span

/-- Calls a native function, with its receiver first if it has one. -/
def native (f : Native) (receiver : Option Value) (arguments : List Value) (span : Span) :
    Eval Value := do
  let all := receiver.toList ++ arguments
  if f.arity.accepts all.length then
    match f with
    | .builtin b => ev.builtin b all span
    | .host h => ev.hostCall h all span
  else
    let visible := f.arity.without receiver.toList.length
    raise (.argCount f.name visible.describe arguments.length) span

end Rill.Evaluator
