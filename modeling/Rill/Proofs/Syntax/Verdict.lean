import Rill.Proofs.Syntax.Bare
import Rill.Syntax.Placement

/-! Whether statements are misplaced does not depend on their places. -/
namespace Rill.Syntax

/-- The outcome of a check without the place. -/
def verdict (r : Except PlacementError Unit) : Except Misplacement Unit :=
  r.mapError PlacementError.fault

/-- Of two checks, the first one that fails decides. -/
theorem verdict_seq {x x' y y' : Except PlacementError Unit} (hx : verdict x = verdict x')
    (hy : verdict y = verdict y') : verdict (do x; y) = verdict (do x'; y') := by
  cases x with
  | error e =>
    cases x' with
    | error e' => exact hx
    | ok _ => cases hx
  | ok _ =>
    cases x' with
    | error e' => cases hx
    | ok _ => exact hy

mutual

theorem Expr.verdict_bare : (e : Expr) → verdict e.bare.check = verdict e.check
  | .atom _ _ => rfl
  | .group inner _ => Expr.verdict_bare inner
  | .sequence parts _ => verdict_bareAll parts
  | .unary _ operand _ => Expr.verdict_bare operand
  | .binary _ lhs rhs _ => verdict_seq (Expr.verdict_bare lhs) (Expr.verdict_bare rhs)
  | .logic _ lhs rhs _ => verdict_seq (Expr.verdict_bare lhs) (Expr.verdict_bare rhs)
  | .assign _ target value _ => verdict_seq (Target.verdict_bare target) (Expr.verdict_bare value)
  | .call callee arguments _ => verdict_seq (Expr.verdict_bare callee) (verdict_bareAll arguments)
  | .create type arguments _ => verdict_seq (Expr.verdict_bare type) (verdict_bareAll arguments)
  | .subscript object index _ => verdict_seq (Expr.verdict_bare object) (Expr.verdict_bare index)
  | .attr object _ _ => Expr.verdict_bare object
  | .function decl => FunctionDecl.verdict_bare decl
  | .list elements _ => verdict_bareAll elements
  | .dict entries _ => verdict_bareEntries entries

theorem Target.verdict_bare : (t : Target) → verdict t.bare.check = verdict t.check
  | .var _ => rfl
  | .attr object _ _ => Expr.verdict_bare object
  | .subscript object index _ => verdict_seq (Expr.verdict_bare object) (Expr.verdict_bare index)

theorem FunctionDecl.verdict_bare : (d : FunctionDecl) → verdict d.bare.check = verdict d.check
  | ⟨_, _, body, _⟩ => verdict_bareBody .function body

theorem verdict_bareAll :
    (es : List Expr) → verdict (checkExprs (bareAll es)) = verdict (checkExprs es)
  | [] => rfl
  | e :: es => verdict_seq (Expr.verdict_bare e) (verdict_bareAll es)

theorem verdict_bareEntries : (es : List (Expr × Expr)) →
    verdict (checkEntries (bareEntries es)) = verdict (checkEntries es)
  | [] => rfl
  | (k, v) :: es =>
    verdict_seq (Expr.verdict_bare k) (verdict_seq (Expr.verdict_bare v) (verdict_bareEntries es))

theorem verdict_bareOption :
    (e : Option Expr) → verdict (checkOption (bareOption e)) = verdict (checkOption e)
  | none => rfl
  | some e => Expr.verdict_bare e

theorem Stmt.verdict_bare (c : Surroundings) :
    (s : Stmt) → verdict (s.bare.check c) = verdict (s.check c)
  | .functionDecl decl => FunctionDecl.verdict_bare decl
  | .moduleDecl _ body _ => verdict_bareBody .bare body
  | .classDecl _ superclass body _ =>
    verdict_seq (verdict_bareOption superclass) (verdict_bareBody .bare body)
  | .block body _ => verdict_bareBody c body
  | .includeFile _ _ => rfl
  | .expr value => Expr.verdict_bare value
  | .ifElse condition success failure _ =>
    verdict_seq (Expr.verdict_bare condition)
      (verdict_seq (verdict_bareBody c success) (verdict_bareBranch c failure))
  | .loop condition body step _ _ =>
    verdict_seq (verdict_bareOption condition)
      (verdict_seq (verdict_bareOption step) (verdict_bareBody c.loop body))
  | .forEach _ iterable body _ =>
    verdict_seq (Expr.verdict_bare iterable) (verdict_bareBody c.loop body)
  | .breakLoop _ => by
    unfold Stmt.bare Stmt.check
    split <;> rfl
  | .continueLoop _ => by
    unfold Stmt.bare Stmt.check
    split <;> rfl
  | .returnValue value _ => by
    unfold Stmt.bare Stmt.check
    split
    · exact verdict_bareOption value
    · rfl

theorem verdict_bareBranch (c : Surroundings) : (b : Option (List Stmt)) →
    verdict (checkBranch c (bareBranch b)) = verdict (checkBranch c b)
  | none => rfl
  | some body => verdict_bareBody c body

theorem verdict_bareBody (c : Surroundings) :
    (ss : List Stmt) → verdict (checkAll c (bareBody ss)) = verdict (checkAll c ss)
  | [] => rfl
  | s :: ss => verdict_seq (Stmt.verdict_bare c s) (verdict_bareBody c ss)

end

/-- Programs that are the same up to places are accepted alike, or refused for the same reason. -/
theorem verdict_of_bare {p q : Program} (h : p.bare = q.bare) :
    verdict p.check = verdict q.check := by
  have hp : verdict (checkAll .bare p.bare) = verdict p.check := verdict_bareBody .bare p
  have hq : verdict (checkAll .bare q.bare) = verdict q.check := verdict_bareBody .bare q
  rw [← hp, ← hq, h]

end Rill.Syntax
