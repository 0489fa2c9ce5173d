import Rill.Host
import Rill.Store.Scope
import Rill.Text.Lines

/-! The state of a running program, and how it can end early. -/
namespace Rill

open Text (Span)

/-- A call in progress: what is called, and where. -/
structure CallFrame where
  name : String
  span : Span
deriving DecidableEq, Repr

/-- An exception on its way out. -/
structure Exception where
  /-- The instance that was raised. -/
  payload : Nat
  className : String
  message : String
  span : Span
  /-- The calls in progress when it was raised, innermost last. -/
  traceback : Array CallFrame
  /-- The failure, if the language itself raised it. -/
  cause : Option Fault

def CallFrame.outline (f : CallFrame) : Outline :=
  .record "CallFrame" [("name", .text f.name), ("span", .span f.span)]

namespace Exception

/-- The code of the failure; `RT000` if the program raised the exception. -/
def code (e : Exception) : String := (e.cause.map Fault.code).getD "RT000"

def outline (e : Exception) : Outline :=
  .record "Exception"
    [("class_name", .text e.className), ("message", .text e.message), ("span", .span e.span),
      ("traceback", .seq (e.traceback.toList.map CallFrame.outline))]

/-- The form `(L:C) [Runtime] Class: message`. -/
def line (lines : Text.Lines) (e : Exception) : String :=
  "(" ++ (lines.position e.span.start).render ++ ") [Runtime] " ++ e.className ++ ": " ++ e.message

end Exception

/-- How a program ends early. -/
inductive Halt where
  | exception (e : Exception)
  /-- The program asked to end with this code. -/
  | exit (code : Int)
  /-- The program did not end within the bounds given. -/
  | outOfFuel
  /-- The language itself went wrong. -/
  | defect

/-- What a program can be told from outside. -/
structure Settings where
  /-- How many calls may be in progress at once. -/
  maxCallDepth : Nat
  /-- Whether assignments and function declarations bind in the outermost frame. -/
  globalAssignment : Bool
  /-- The source of an included file, or the reason why there is none. -/
  source : String → Except String String
  hosts : Array HostFunction

/-- The state of a running program. -/
structure Machine where
  store : Store
  /-- All that was printed. -/
  output : String
  /-- The calls in progress, innermost last. -/
  calls : Array CallFrame
  /-- The files being included, innermost first. -/
  includes : List String

/-- The outermost frame. -/
def globals : Nat := 0

/-- A computation of a running program. -/
abbrev Eval := EStateM Halt Machine

namespace Eval

instance : MonadLift Store.Action Eval where
  monadLift action := fun ⟨store, output, calls, includes⟩ =>
    match action store with
    | (a, store) => .ok a ⟨store, output, calls, includes⟩

def store : Eval Store := do return (← get).store

def outOfFuel {α : Type} : Eval α := throw .outOfFuel

def defect {α : Type} : Eval α := throw .defect

/-- Raises an exception for a failure at a place. -/
def raise {α : Type} (fault : Fault) (span : Span) : Eval α := do
  let payload ← Store.newInstance fault.type.number
    (Table.ofList [("message", .str fault.message)])
  throw (.exception
    { payload, className := fault.type.name, message := fault.message, span
      traceback := (← get).calls, cause := some fault })

/-- Raises the exception that a message about an argument calls for. -/
def invalid {α : Type} (message : String) (span : Span) : Eval α :=
  raise (.invalidArgument message) span

/-- Runs what may fail on the store, and raises an exception if it does. -/
def attempt {α : Type} (action : Store.Attempt α) (span : Span) : Eval α :=
  fun ⟨store, output, calls, includes⟩ =>
    match action store with
    | .ok a store => .ok a ⟨store, output, calls, includes⟩
    | .error (.fault fault) store => raise fault span ⟨store, output, calls, includes⟩
    | .error .defect store => defect ⟨store, output, calls, includes⟩

def print (line : String) : Eval Unit :=
  modify fun m => { m with output := m.output ++ line ++ "\n" }

/-- Runs `body` as a call in progress. -/
def inCall {α : Type} (frame : CallFrame) (body : Eval α) : Eval α :=
  fun ⟨store, output, calls, includes⟩ =>
    match body ⟨store, output, calls.push frame, includes⟩ with
    | .ok a ⟨store, output, calls, includes⟩ => .ok a ⟨store, output, calls.pop, includes⟩
    | .error h ⟨store, output, calls, includes⟩ => .error h ⟨store, output, calls.pop, includes⟩

/-- Runs `body` as an inclusion in progress. -/
def inInclude {α : Type} (path : String) (body : Eval α) : Eval α :=
  fun ⟨store, output, calls, includes⟩ =>
    match body ⟨store, output, calls, path :: includes⟩ with
    | .ok a ⟨store, output, calls, includes⟩ => .ok a ⟨store, output, calls, includes.tail⟩
    | .error h ⟨store, output, calls, includes⟩ => .error h ⟨store, output, calls, includes.tail⟩

end Eval
end Rill
