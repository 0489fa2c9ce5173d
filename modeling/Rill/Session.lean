import Rill.Eval.Call

/-! Programs run one after another in one machine. -/
namespace Rill

open Syntax (Program Stmt)

/-- Why a source gave no value. -/
inductive Failure where
  | syntaxError (e : Syntax.Error)
  | misplaced (e : Syntax.PlacementError)
  | halted (h : Halt)

/-- Runs statements in the outermost frame. The value is that of the last one that is an
expression. -/
def runStatements (ev : Evaluator) (last : Value) : List Stmt → Eval Value
  | [] => return last
  | .expr e :: ss => do
    let v ← e.eval ev globals
    runStatements ev v ss
  | s :: ss => do
    ev.stray (← s.exec ev globals)
    runStatements ev last ss

/-- A machine and what it was told from outside. -/
structure Session where
  settings : Settings
  machine : Machine
  /-- How many variables there were before any program ran. -/
  prelude : Nat

namespace Session

/-- How deeply calls may nest and how many rounds a loop may take before a run is given up. -/
def fuel : Nat := 0x4000000000000000

/-- The built-in classes with their methods. -/
def builtinClass (c : BuiltinClass) : Class :=
  ⟨c.name, Table.ofList (c.methods.map fun b => (b.name, .native (.builtin b))),
    c.superclass.map BuiltinClass.number⟩

/-- The variables that every program starts with, without those of the host. -/
def install : Store.Action Unit := do
  let _ ← Store.newRoot
  for c in BuiltinClass.all do
    let type ← Store.newClass (builtinClass c)
    Store.bind globals c.name type
  for f in GlobalFunction.all do
    Store.bind globals f.name (.native (.builtin (.global f)))

/-- Makes variables of the functions of a host, the first of which has the given number. -/
def installHosts (number : Nat) : List HostFunction → Store.Action Unit
  | [] => return ()
  | h :: hs => do
    Store.bind globals h.name (.native (.host ⟨h.name, h.arity, number⟩))
    installHosts (number + 1) hs

/-- The variables that every program starts with. -/
def setup (settings : Settings) : Store.Action Unit := do
  install
  installHosts 0 settings.hosts.toList

/-- A machine in which nothing has run. -/
def start (settings : Settings) : Session :=
  let store := ((setup settings).run Store.empty).2
  ⟨settings, ⟨store, "", #[], []⟩, (store.frame globals).names.size⟩

/-- Runs a program that was read and checked. -/
def runProgram (session : Session) (ev : Evaluator) (program : Program) :
    Except Failure Value × Session :=
  match runStatements ev .null program session.machine with
  | .ok v machine => (.ok v, { session with machine })
  | .error h machine => (.error (.halted h), { session with machine })

/-- Reads, checks and runs a source. A source that is refused changes nothing. -/
def runWith (session : Session) (ev : Evaluator) (source : String) :
    Except Failure Value × Session :=
  match Syntax.parse source with
  | .error e => (.error (.syntaxError e), session)
  | .ok program =>
    match Program.check program with
    | .error e => (.error (.misplaced e), session)
    | .ok _ => session.runProgram ev program

def run (session : Session) (source : String) : Except Failure Value × Session :=
  session.runWith (Evaluator.ofFuel session.settings fuel) source

/-- Does something to the store. -/
def onStore {α : Type} (session : Session) (action : Store.Action α) : α × Session :=
  let (a, store) := action session.machine.store
  (a, { session with machine := { session.machine with store } })

/-- Binds a global variable. -/
def define (session : Session) (name : String) (value : Value) : Session :=
  (session.onStore (Store.bind globals name value)).2

/-- The global variables with their values, in the order of their making. -/
def bindings (session : Session) : List (String × Value) :=
  session.machine.store.bindings globals

/-- What was printed since the last time, which is then forgotten. -/
def takeOutput (session : Session) : String × Session :=
  (session.machine.output, { session with machine := { session.machine with output := "" } })

end Session
end Rill
