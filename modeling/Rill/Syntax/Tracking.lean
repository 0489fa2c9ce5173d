import Rill.Syntax.Arena
import Rill.Syntax.Placement

/-! The check of placements by a walk that keeps track of what is around it.

The surroundings are changed for a body and set back after it. Function literals are found in the
tables of expressions. -/
namespace Rill.Syntax

mutual

/-- The literals that an expression adds to a table are smaller than it. -/
theorem Expr.mem_functions_place (d : FunctionDecl) : (e : Expr) → (a : Arena) →
    d ∈ (e.place a).functions → d ∈ a.functions ∨ sizeOf d < sizeOf e
  | .atom _ _, _, h => .inl h
  | .group inner _, a, h => by
    have := Expr.mem_functions_place d inner a h
    grind [Expr.group.sizeOf_spec]
  | .sequence parts _, a, h => by
    have := mem_functions_placeAll d parts a h
    grind [Expr.sequence.sizeOf_spec]
  | .unary _ operand _, a, h => by
    have := Expr.mem_functions_place d operand a h
    grind [Expr.unary.sizeOf_spec]
  | .binary _ lhs rhs _, a, h => by
    have := Expr.mem_functions_place d lhs a
    have := Expr.mem_functions_place d rhs (lhs.place a) h
    grind [Expr.binary.sizeOf_spec]
  | .logic _ lhs rhs _, a, h => by
    have := Expr.mem_functions_place d lhs a
    have := Expr.mem_functions_place d rhs (lhs.place a) h
    grind [Expr.logic.sizeOf_spec]
  | .assign _ target value _, a, h => by
    have := Target.mem_functions_place d target a
    have := Expr.mem_functions_place d value (target.place a).1 h
    grind [Expr.assign.sizeOf_spec]
  | .call callee arguments _, a, h => by
    have := Expr.mem_functions_place d callee a
    have := mem_functions_placeAll d arguments (callee.place a) h
    grind [Expr.call.sizeOf_spec]
  | .create type arguments _, a, h => by
    have := Expr.mem_functions_place d type a
    have := mem_functions_placeAll d arguments (type.place a) h
    grind [Expr.create.sizeOf_spec]
  | .subscript object index _, a, h => by
    have := Expr.mem_functions_place d object a
    have := Expr.mem_functions_place d index (object.place a) h
    grind [Expr.subscript.sizeOf_spec]
  | .attr object _ _, a, h => by
    have := Expr.mem_functions_place d object a h
    grind [Expr.attr.sizeOf_spec]
  | .function decl, a, h => by
    have := Array.mem_push.mp h
    grind [Expr.function.sizeOf_spec]
  | .list elements _, a, h => by
    have := mem_functions_placeAll d elements a h
    grind [Expr.list.sizeOf_spec]
  | .dict entries _, a, h => by
    have := mem_functions_placeEntries d entries a h
    grind [Expr.dict.sizeOf_spec]

theorem Target.mem_functions_place (d : FunctionDecl) : (t : Target) → (a : Arena) →
    d ∈ (t.place a).1.functions → d ∈ a.functions ∨ sizeOf d < sizeOf t
  | .var _, _, h => .inl h
  | .attr object _ _, a, h => by
    have := Expr.mem_functions_place d object a h
    grind [Target.attr.sizeOf_spec]
  | .subscript object index _, a, h => by
    have := Expr.mem_functions_place d object a
    have := Expr.mem_functions_place d index (object.place a) h
    grind [Target.subscript.sizeOf_spec]

theorem mem_functions_placeAll (d : FunctionDecl) : (es : List Expr) → (a : Arena) →
    d ∈ (placeAll a es).1.functions → d ∈ a.functions ∨ sizeOf d < sizeOf es
  | [], _, h => .inl h
  | e :: es, a, h => by
    have := Expr.mem_functions_place d e a
    have := mem_functions_placeAll d es (e.place a) h
    grind [List.cons.sizeOf_spec]

theorem mem_functions_placeEntries (d : FunctionDecl) : (es : List (Expr × Expr)) → (a : Arena) →
    d ∈ (placeEntries a es).1.functions → d ∈ a.functions ∨ sizeOf d < sizeOf es
  | [], _, h => .inl h
  | (key, value) :: es, a, h => by
    have := Expr.mem_functions_place d key a
    have := Expr.mem_functions_place d value (key.place a)
    have := mem_functions_placeEntries d es (value.place (key.place a)) h
    grind [List.cons.sizeOf_spec, Prod.mk.sizeOf_spec]

end

theorem Expr.sizeOf_lt_of_mem_functions {e : Expr} {d : FunctionDecl} (h : d ∈ e.functions) :
    sizeOf d < sizeOf e := by
  have hplace := e.mem_functions_place d Arena.empty (Array.mem_toList_iff.mp h)
  exact hplace.resolve_left (by simp [Arena.empty])

/-- A check that keeps track of its surroundings. -/
abbrev Tracking := EStateM PlacementError Surroundings

namespace Tracking

/-- Checks the body of a loop, which counts while the check goes on. -/
def inLoop (check : Tracking Unit) : Tracking Unit := fun c =>
  match check { c with loops := c.loops + 1 } with
  | .ok _ c => .ok () { c with loops := c.loops - 1 }
  | .error e c => .error e { c with loops := c.loops - 1 }

/-- Checks the body of a function, class or module. What was around it before is around it again
when the check has ended. -/
def inBody (inner : Surroundings) (check : Tracking Unit) : Tracking Unit := fun c =>
  match check inner with
  | .ok _ _ => .ok () c
  | .error e _ => .error e c

end Tracking

open Tracking

mutual

/-- Checks the literals that the table of an expression lists. -/
def Expr.track (e : Expr) : Tracking Unit := e.functions.attach.forM fun ⟨decl, _⟩ => decl.track
termination_by sizeOf e
decreasing_by exact Expr.sizeOf_lt_of_mem_functions (by assumption)

def FunctionDecl.track : FunctionDecl → Tracking Unit
  | ⟨_, _, body, _⟩ => inBody .function (trackAll body)
termination_by decl => sizeOf decl

def trackOption : Option Expr → Tracking Unit
  | none => return ()
  | some e => e.track
termination_by e => sizeOf e

def trackBranch : Option (List Stmt) → Tracking Unit
  | none => return ()
  | some body => trackAll body
termination_by body => sizeOf body

def trackAll : List Stmt → Tracking Unit
  | [] => return ()
  | s :: ss => do
    s.track
    trackAll ss
termination_by ss => sizeOf ss

def Stmt.track : Stmt → Tracking Unit
  | .functionDecl decl => decl.track
  | .moduleDecl _ body _ => inBody .bare (trackAll body)
  | .classDecl _ superclass body _ => do
    trackOption superclass
    inBody .bare (trackAll body)
  | .block body _ => trackAll body
  | .includeFile _ _ => return ()
  | .expr value => value.track
  | .ifElse condition success failure _ => do
    condition.track
    trackAll success
    trackBranch failure
  | .loop condition body step _ _ => do
    trackOption condition
    trackOption step
    inLoop (trackAll body)
  | .forEach _ iterable body _ => do
    iterable.track
    inLoop (trackAll body)
  | .breakLoop span => do if (← get).loops = 0 then throw ⟨.breakOutsideLoop, span⟩
  | .continueLoop span => do if (← get).loops = 0 then throw ⟨.continueOutsideLoop, span⟩
  | .returnValue value span => do
    if (← get).inFunction then trackOption value
    else throw ⟨.returnOutsideFunction, span⟩
termination_by s => sizeOf s

end

/-- Checks a whole program, outside of all functions and loops. -/
def Program.track (p : Program) : Except PlacementError Unit :=
  match trackAll p .bare with
  | .ok _ _ => .ok ()
  | .error e _ => .error e

end Rill.Syntax
