import Rill.Proofs.Places.Statements
import Rill.Proofs.Places.Toolkit

/-! Assignments with an operator against those that write the operator out. -/
namespace Rill.Syntax

open Text (Span)
open Eval
open Evaluator (getAttribute)

/-- The expression that reads what a target writes, as an assignment from a place reads it. -/
def Target.read (span : Span) : Target → Expr
  | .var name => .atom (.var name.name) name.span
  | .attr object name _ => .attr object name span
  | .subscript object index _ => .subscript object index span

/-- The assignment `t = t op (e)`, at the place of `t op= e`. -/
def expansion (op : BinaryOp) (target : Target) (value : Expr) (span : Span) : Expr :=
  .assign .plain target (.binary op (target.read span) (.group value span) span) span

/-- Targets whose parts can be read twice: a variable, an attribute of a variable, and an element of
a variable at a variable or literal. -/
inductive Target.Steady : Target → Prop
  | var (name : Ident) : Steady (.var name)
  | attr (object : String) (place : Span) (name : Ident) (span : Span) :
      Steady (.attr (.atom (.var object) place) name span)
  | subscript (object : String) (place : Span) (index : Atom) (place' span : Span) :
      Steady (.subscript (.atom (.var object) place) (.atom index place') span)

/-- Literals and variables have no effect where they have a value. -/
theorem Atom.eval_eq_ok {a : Atom} {env : Nat} {span : Span} {m n : Machine} {v : Value}
    (h : a.eval env span m = .ok v n) : n = m := by
  cases a with
  | var name =>
    obtain ⟨found, m', hstore, hread⟩ := of_bind_eq_ok (x := Eval.store) h
    cases hstore
    cases hvalue : m.store.read? env name with
    | some w =>
      rw [hvalue] at hread
      cases hread
      rfl
    | none =>
      rw [hvalue] at hread
      cases hread
  | _ =>
    cases h
    rfl

section

variable {ev : Evaluator} {env : Nat} {m : Machine}

theorem unwatched_eq_ok (hwatch : ev.watch = Evaluator.unwatched) (v : Value) (name : String)
    (sets : Bool) : ev.watch v name sets m = .ok () m := by
  rw [hwatch]
  rfl

/-- An attribute of an atom whose value is known. -/
theorem eval_attr_of_ok (hwatch : ev.watch = Evaluator.unwatched) {a : Atom} {place : Span} {o : Value}
    (ho : a.eval env place m = .ok o m) (name : Ident) (span : Span) :
    Expr.eval ev env (.attr (.atom a place) name span) m =
      getAttribute o name.name span m := by
  rw [Expr.eval, Expr.eval, bind_of_ok ho, bind_of_ok (unwatched_eq_ok hwatch o name.name false)]

theorem eval_subscript_of_ok (ev : Evaluator) {a b : Atom} {place place' : Span} {o i : Value}
    (ho : a.eval env place m = .ok o m) (hi : b.eval env place' m = .ok i m) (span : Span) :
    Expr.eval ev env (.subscript (.atom a place) (.atom b place') span) m = ev.getItem o i span m := by
  rw [Expr.eval, Expr.eval, Expr.eval, bind_of_ok ho, bind_of_ok hi]

theorem combine_eq {old old' : Eval Value} (hold : old m = old' m) (op : BinaryOp)
    (value : Eval Value) (span : Span) :
    combine ev (.inPlace op) old value span m = (do
      let l ← old'
      let r ← value
      ev.binary op l r span) m :=
  bind_congr_at hold

/-- The parts of a steady target are read before, and again by the operator. -/
theorem Target.Steady.assign_eq {target : Target} (h : target.Steady)
    (hwatch : ev.watch = Evaluator.unwatched) (op : BinaryOp) (value : Expr) (span : Span) :
    (Expr.assign (.inPlace op) target value span).eval ev env =
      (expansion op target value span).eval ev env := by
  cases h with
  | var name => rfl
  | attr object place name span' =>
    funext m
    cases ho : (Atom.var object).eval env place m with
    | error e n => exact (bind_of_error ho).trans (bind_of_error ho).symm
    | ok o n =>
      cases Atom.eval_eq_ok ho
      have hwatched := unwatched_eq_ok (m := m) hwatch o name.name true
      have hread := eval_attr_of_ok hwatch ho name span
      refine (bind_of_ok ho).trans (Eq.trans ?_ (bind_of_ok ho).symm)
      refine (bind_of_ok hwatched).trans (Eq.trans ?_ (bind_of_ok hwatched).symm)
      exact bind_congr_at (combine_eq hread.symm op (value.eval ev env) span)
  | subscript object place index place' span' =>
    funext m
    cases ho : (Atom.var object).eval env place m with
    | error e n => exact (bind_of_error ho).trans (bind_of_error ho).symm
    | ok o n =>
      cases Atom.eval_eq_ok ho
      refine (bind_of_ok ho).trans (Eq.trans ?_ (bind_of_ok ho).symm)
      cases hi : index.eval env place' m with
      | error e n => exact (bind_of_error hi).trans (bind_of_error hi).symm
      | ok i n =>
        cases Atom.eval_eq_ok hi
        refine (bind_of_ok hi).trans (Eq.trans ?_ (bind_of_ok hi).symm)
        have hread := eval_subscript_of_ok ev ho hi span
        exact bind_congr_at (combine_eq hread.symm op (value.eval ev env) span)

end

theorem watch_ofFuel (settings : Settings) (fuel : Nat) :
    (Evaluator.ofFuel settings fuel).watch = Evaluator.unwatched := by
  cases fuel <;> rfl

/-- Assignments with an operator are those that write the operator out. With the same places the two
are the same computation; with any other places for the latter, they run alike from machines that
differ in places only, if the host does not look at these. -/
theorem inPlace_eq_expansion (settings : Settings) (fuel env : Nat) {target : Target}
    (h : target.Steady) (op : BinaryOp) (value : Expr) (span : Span) :
    let ev := Evaluator.ofFuel settings fuel
    let inPlace := Expr.assign (.inPlace op) target value span
    inPlace.eval ev env = (expansion op target value span).eval ev env ∧
    ((∀ f ∈ settings.hosts, f.Blind) → ∀ e : Expr, e.bare = (expansion op target value span).bare →
      RunsAlike (inPlace.eval ev env) (e.eval ev env)) := by
  intro ev inPlace
  have hsame : inPlace.eval ev env = (expansion op target value span).eval ev env :=
    h.assign_eq (watch_ofFuel settings fuel) op value span
  refine ⟨hsame, ?_⟩
  intro hhosts e he
  have hev : ev.Blind := Evaluator.blind_ofFuel hhosts fuel
  have hbare := Expr.alike_eval hev env (expansion op target value span)
  rw [← he] at hbare
  rw [hsame]
  exact hbare.trans (Expr.alike_eval hev env e).symm

/-- An element of a variable at a variable, written out elsewhere in the source. -/
theorem inPlace_subscript_expansion :
    let target := Target.subscript (.atom (.var "o") ⟨0, 1⟩) (.atom (.var "i") ⟨2, 1⟩) ⟨0, 4⟩
    let value := Expr.call (.atom (.var "f") ⟨8, 1⟩) [] ⟨8, 3⟩
    let settings : Settings := ⟨100, false, fun _ => .error "", Host.toolkit.toArray⟩
    let ev := Evaluator.ofFuel settings 1000
    let inPlace := Expr.assign (.inPlace .sub) target value ⟨0, 11⟩
    let e := (expansion .sub target value ⟨50, 20⟩)
    target.Steady ∧ RunsAlike (inPlace.eval ev 3) (e.eval ev 3) := by
  intro target value settings ev inPlace e
  have hsteady : target.Steady := .subscript "o" ⟨0, 1⟩ (.var "i") ⟨2, 1⟩ ⟨0, 4⟩
  have hhosts : ∀ f ∈ settings.hosts, f.Blind := by
    intro f hf
    exact Host.blind_toolkit f (List.mem_toArray.mp hf)
  exact ⟨hsteady,
    (inPlace_eq_expansion settings 1000 3 hsteady .sub value ⟨0, 11⟩).2 hhosts e rfl⟩

end Rill.Syntax
