import Rill.Eval.Native
import Rill.Eval.Tree

/-! Calls of values, and the evaluator made of them. -/
namespace Rill.Evaluator

open Text (Span)
open Eval

/-- The name under which a call of a value is recorded. -/
def calleeName (s : Store) : Value → String
  | .function id => s.functionName id
  | .native f | .bound f _ => f.name
  | .type id => s.className id
  | v => s.typeName v

/-- Binds `this` for a method: to its receiver if it has one, else to the first argument. Gives the
arguments for the parameters. -/
def bindThis (f : Function) (frame : Nat) (arguments : List Value) (span : Span) :
    Eval (List Value) := do
  match f.receiver, f.isMethod, arguments with
  | some receiver, _, _ =>
    Store.bind frame "this" receiver
    return arguments
  | none, true, [] => raise (.argCount f.name (toString (f.arity + 1)) 0) span
  | none, true, this :: rest =>
    Store.bind frame "this" this
    return rest
  | none, false, _ => return arguments

def bindParameters (frame : Nat) : List Syntax.Ident → List Value → Store.Action Unit
  | p :: ps, v :: vs => do
    Store.bind frame p.name v
    bindParameters frame ps vs
  | _, _ => return ()

variable (ev : Evaluator)

/-- Runs the body of a function in a frame of its own. -/
def callFunction (f : Function) (arguments : List Value) (span : Span) : Eval Value := do
  let frame ← Store.newScope f.closure
  let arguments ← bindThis f frame arguments span
  if arguments.length = f.arity then
    bindParameters frame f.decl.parameters arguments
    match ← Syntax.execAll ev frame f.decl.body with
    | .returned v => return v
    | signal =>
      ev.stray signal
      return .null
  else raise (.argCount f.name (toString f.arity) arguments.length) span

/-- Does what a call of a value means. -/
def dispatch (callee : Value) (arguments : List Value) (span : Span) : Eval Value := do
  match callee with
  | .function id =>
    match (← store).functions[id]? with
    | some f => ev.callFunction f arguments span
    | none => return .null
  | .native f => ev.native f none arguments span
  | .bound f receiver => ev.native f (some receiver) arguments span
  | .type id => ev.instantiate id arguments span
  | .object id =>
    match ← ev.callHook id "__call__" arguments span with
    | some result => return result
    | none => raise (.notCallable ((← store).typeName callee)) span
  | _ => raise (.notCallable ((← store).typeName callee)) span

/-- Calls a value, recording the call while it is in progress. There is a limit to how many calls may
be. -/
def callValue (callee : Value) (arguments : List Value) (span : Span) : Eval Value := do
  inCall ⟨calleeName (← store) callee, span⟩ (do
    if ev.settings.maxCallDepth < (← get).calls.size then
      raise (.stackOverflow ev.settings.maxCallDepth) span
    else ev.dispatch callee arguments span)

/-- Nobody looks on. -/
def unwatched (_ : Value) (_ : String) (_ : Bool) : Eval Unit := return ()

/-- The evaluator in which calls and included files nest at most `fuel` deep, with a choice of what
becomes of stray signals. -/
def ofFuelWith (stray : Signal → Eval Unit) (settings : Settings) : (fuel : Nat) → Evaluator
  | 0 =>
    { settings
      stray
      watch := unwatched
      fuel := 0
      call := fun _ _ _ => outOfFuel
      block := fun _ _ => outOfFuel }
  | fuel + 1 =>
    { settings
      stray
      watch := unwatched
      fuel
      call := fun callee arguments span m =>
        (ofFuelWith stray settings fuel).callValue callee arguments span m
      block := fun body frame m =>
        Syntax.execAll (ofFuelWith stray settings fuel) frame body m }

/-- The evaluator of programs. It passes over stray signals. -/
def ofFuel (settings : Settings) (fuel : Nat) : Evaluator :=
  ofFuelWith (fun _ => return ()) settings fuel

end Rill.Evaluator
