import Rill.Syntax.Placement

/-! What is around a statement of a program, said without the check of placements, and what the check
finds. -/
namespace Rill.Syntax

def Target.operands : Target → List Expr
  | .var _ => []
  | .attr object _ _ => [object]
  | .subscript object index _ => [object, index]

/-- The expressions directly inside an expression. -/
def Expr.operands : Expr → List Expr
  | .atom _ _ | .function _ => []
  | .group inner _ => [inner]
  | .sequence parts _ => parts
  | .unary _ operand _ => [operand]
  | .binary _ lhs rhs _ | .logic _ lhs rhs _ => [lhs, rhs]
  | .assign _ target value _ => target.operands ++ [value]
  | .call callee arguments _ => callee :: arguments
  | .create type arguments _ => type :: arguments
  | .subscript object index _ => [object, index]
  | .attr object _ _ => [object]
  | .list elements _ => elements
  | .dict entries _ => entries.flatMap fun (key, value) => [key, value]

/-- A function literal stands somewhere in an expression, but not in the body of another one. -/
inductive Expr.Contains (decl : FunctionDecl) : Expr → Prop
  | literal : Contains decl (.function decl)
  | operand {e inner : Expr} : inner ∈ e.operands → Contains decl inner → Contains decl e

/-- What statements can stand in. -/
inductive Enclosure where
  | block
  | branch
  | loop
  | function
  | type
  | module
deriving DecidableEq, Repr

/-- The bodies of functions, classes and modules, past which a loop or a function has no effect. -/
def Enclosure.isBody : Enclosure → Bool
  | function | type | module => true
  | block | branch | loop => false

namespace Stmt

/-- The expressions of a statement, without those of statements inside it. -/
def exprs : Stmt → List Expr
  | classDecl _ superclass _ _ => superclass.toList
  | expr value => [value]
  | ifElse condition _ _ _ => [condition]
  | loop condition _ step _ _ => condition.toList ++ step.toList
  | forEach _ iterable _ _ => [iterable]
  | returnValue value _ => value.toList
  | _ => []

/-- The statements directly inside a statement, with what they stand in. -/
def bodies : Stmt → List (Enclosure × List Stmt)
  | functionDecl decl => [(.function, decl.body)]
  | moduleDecl _ body _ => [(.module, body)]
  | classDecl _ _ body _ => [(.type, body)]
  | block body _ => [(.block, body)]
  | ifElse _ success failure _ => (.branch, success) :: failure.toList.map (.branch, ·)
  | loop _ body _ _ _ => [(.loop, body)]
  | forEach _ _ body _ => [(.loop, body)]
  | _ => []

/-- A statement stands directly in a body of another one, or in a function literal of its
expressions. -/
inductive Holds (s : Stmt) : Enclosure → Stmt → Prop
  | body {kind : Enclosure} {body : List Stmt} {t : Stmt} :
      (kind, body) ∈ s.bodies → t ∈ body → Holds s kind t
  | literal {e : Expr} {decl : FunctionDecl} {t : Stmt} :
      e ∈ s.exprs → e.Contains decl → t ∈ decl.body → Holds s .function t

end Stmt

/-- A statement of a program, at any depth, with what it stands in, innermost first. -/
inductive Program.Places (p : Program) : List Enclosure → Stmt → Prop
  | top {s : Stmt} : s ∈ p → Places p [] s
  | inside {around : List Enclosure} {s t : Stmt} {kind : Enclosure} :
      Places p around s → s.Holds kind t → Places p (kind :: around) t

/-- There is a loop before the nearest body of a function, class or module. -/
def InLoop (around : List Enclosure) : Prop :=
  .loop ∈ around.takeWhile fun kind => !kind.isBody

/-- The nearest body of a function, class or module is that of a function. -/
def InFunction (around : List Enclosure) : Prop :=
  around.find? Enclosure.isBody = some .function

/-- A statement can take no effect where it stands, which is a fault at its place. -/
inductive Misplaced (around : List Enclosure) : Stmt → PlacementError → Prop
  | breakLoop {span : Text.Span} :
      ¬ InLoop around → Misplaced around (.breakLoop span) ⟨.breakOutsideLoop, span⟩
  | continueLoop {span : Text.Span} :
      ¬ InLoop around → Misplaced around (.continueLoop span) ⟨.continueOutsideLoop, span⟩
  | returnValue {value : Option Expr} {span : Text.Span} : ¬ InFunction around →
      Misplaced around (.returnValue value span) ⟨.returnOutsideFunction, span⟩

theorem inLoop_cons (kind : Enclosure) (around : List Enclosure) :
    InLoop (kind :: around) ↔ kind = .loop ∨ kind.isBody = false ∧ InLoop around := by
  cases kind <;> simp [InLoop, Enclosure.isBody]

theorem inFunction_cons (kind : Enclosure) (around : List Enclosure) :
    InFunction (kind :: around) ↔ kind = .function ∨ kind.isBody = false ∧ InFunction around := by
  cases kind <;> simp [InFunction, Enclosure.isBody]

namespace Surroundings

/-- What is around the statements of an enclosure. -/
def enter (c : Surroundings) : Enclosure → Surroundings
  | .block | .branch => c
  | .loop => c.loop
  | .function => function
  | .type | .module => bare

/-- What is around a statement that stands in these, innermost first. -/
def of (around : List Enclosure) : Surroundings := around.foldr (fun kind c => c.enter kind) bare

theorem of_cons (kind : Enclosure) (around : List Enclosure) :
    of (kind :: around) = (of around).enter kind := rfl

theorem loops_of (around : List Enclosure) : (of around).loops = 0 ↔ ¬ InLoop around := by
  induction around with
  | nil => simp [of, bare, InLoop]
  | cons kind around ih =>
    rw [of_cons, inLoop_cons]
    cases kind <;> simp [enter, loop, function, bare, Enclosure.isBody, ih]

theorem inFunction_of (around : List Enclosure) :
    (of around).inFunction = true ↔ InFunction around := by
  induction around with
  | nil => simp [of, bare, InFunction]
  | cons kind around ih =>
    rw [of_cons, inFunction_cons, ← ih]
    cases kind <;> simp [enter, loop, function, bare, Enclosure.isBody]

end Surroundings

/-! ### Checks one after another -/

section

variable {α : Type} {f : α → Except PlacementError Unit} {xs : List α} {e : PlacementError}

theorem seq_eq_error {x y : Except PlacementError Unit} (h : (do x; y) = .error e) :
    x = .error e ∨ y = .error e := by
  cases x with
  | error e' => exact .inl h
  | ok u => exact .inr h

theorem forM_eq_ok_iff : forM xs f = .ok () ↔ ∀ x ∈ xs, f x = .ok () := by
  induction xs with
  | nil => simp [pure, Except.pure]
  | cons x xs ih => rw [List.forM_cons, seq_eq_ok, ih, List.forall_mem_cons]

theorem exists_of_forM_eq_error (h : forM xs f = .error e) : ∃ x ∈ xs, f x = .error e := by
  induction xs with
  | nil => cases h
  | cons x xs ih =>
    rw [List.forM_cons] at h
    rcases seq_eq_error h with hx | hxs
    · exact ⟨x, List.mem_cons_self, hx⟩
    · obtain ⟨y, hy, hye⟩ := ih hxs
      exact ⟨y, List.mem_cons_of_mem x hy, hye⟩

end

/-! ### The check by parts -/

theorem checkExprs_eq (es : List Expr) : checkExprs es = forM es Expr.check := by
  induction es with
  | nil => rfl
  | cons e es ih => rw [checkExprs, List.forM_cons, ih]

theorem checkEntries_eq (es : List (Expr × Expr)) :
    checkEntries es = forM (es.flatMap fun (key, value) => [key, value]) Expr.check := by
  induction es with
  | nil => rfl
  | cons e es ih =>
    obtain ⟨key, value⟩ := e
    rw [checkEntries, ih]
    rfl

theorem checkOption_eq (e : Option Expr) : checkOption e = forM e.toList Expr.check := by
  cases e with
  | none => rfl
  | some e => simp [checkOption]

theorem checkAll_eq (c : Surroundings) (ss : List Stmt) : checkAll c ss = forM ss (Stmt.check c) := by
  induction ss with
  | nil => rfl
  | cons s ss ih => rw [checkAll, List.forM_cons, ih]

namespace Expr

/-- An expression that is no function literal is checked by its operands. -/
theorem check_eq {e : Expr} (h : ∀ decl, e ≠ .function decl) :
    e.check = forM e.operands Expr.check := by
  cases e with
  | atom a span => rfl
  | function decl => exact absurd rfl (h decl)
  | assign op target value span =>
    cases target with
    | var name =>
      simp only [operands, Target.operands, List.nil_append, List.forM_cons, List.forM_nil, check]
      cases value.check <;> rfl
    | _ => simp [check, Target.check, operands, Target.operands]
  | _ => simp [check, operands, checkExprs_eq, checkEntries_eq]

theorem ne_function_of_mem_operands {e inner : Expr} (h : inner ∈ e.operands) :
    ∀ decl, e ≠ .function decl := by
  rintro decl rfl
  cases h

theorem sizeOf_lt_of_mem_operands {e inner : Expr} (h : inner ∈ e.operands) :
    sizeOf inner < sizeOf e := by
  cases e with
  | assign op target value span =>
    cases target <;> grind [operands, Target.operands]
  | sequence parts span =>
    have hlt : sizeOf inner < sizeOf parts := List.sizeOf_lt_of_mem h
    grind
  | dict entries span =>
    obtain ⟨⟨key, value⟩, hentry, hinner⟩ := List.mem_flatMap.mp h
    have hlt := List.sizeOf_lt_of_mem hentry
    grind
  | _ => grind [operands, → List.sizeOf_lt_of_mem]

/-- A literal is checked with every expression that contains it. -/
theorem Contains.check_eq_ok {decl : FunctionDecl} {e : Expr} (h : e.Contains decl)
    (he : e.check = .ok ()) : decl.check = .ok () := by
  induction h with
  | literal => exact he
  | operand hmem _ ih =>
    rw [check_eq (ne_function_of_mem_operands hmem), forM_eq_ok_iff] at he
    exact ih (he _ hmem)

theorem Contains.sizeOf_lt {decl : FunctionDecl} {e : Expr} (h : e.Contains decl) :
    sizeOf decl < sizeOf e := by
  induction h with
  | literal => simp
  | operand hmem _ ih => exact Nat.lt_trans ih (sizeOf_lt_of_mem_operands hmem)

/-- What is wrong with an expression is wrong with a literal in it. -/
theorem exists_literal {err : PlacementError} (e : Expr) (h : e.check = .error err) :
    ∃ decl, e.Contains decl ∧ decl.check = .error err := by
  by_cases hfun : ∃ decl, e = .function decl
  · obtain ⟨decl, rfl⟩ := hfun
    exact ⟨decl, .literal, h⟩
  · rw [check_eq (not_exists.mp hfun)] at h
    obtain ⟨inner, hmem, hinner⟩ := exists_of_forM_eq_error h
    have hlt : sizeOf inner < sizeOf e := sizeOf_lt_of_mem_operands hmem
    obtain ⟨decl, hdecl, herr⟩ := exists_literal inner hinner
    exact ⟨decl, .operand hmem hdecl, herr⟩
termination_by sizeOf e

end Expr

theorem FunctionDecl.sizeOf_body_lt (decl : FunctionDecl) : sizeOf decl.body < sizeOf decl := by
  cases decl
  grind

theorem FunctionDecl.check_eq (decl : FunctionDecl) : decl.check = checkAll .function decl.body := by
  cases decl
  rfl

namespace Stmt

/-- What is wrong with a statement itself. -/
def fault? (c : Surroundings) : Stmt → Option PlacementError
  | breakLoop span => if c.loops = 0 then some ⟨.breakOutsideLoop, span⟩ else none
  | continueLoop span => if c.loops = 0 then some ⟨.continueOutsideLoop, span⟩ else none
  | returnValue _ span => if c.inFunction then none else some ⟨.returnOutsideFunction, span⟩
  | _ => none

theorem check_of_fault {c : Surroundings} {s : Stmt} {err : PlacementError}
    (h : s.fault? c = some err) : s.check c = .error err := by
  cases s <;> simp_all [fault?, check]

/-- A statement with which nothing is wrong itself is checked by its expressions and its bodies. -/
theorem check_eq {c : Surroundings} {s : Stmt} (h : s.fault? c = none) : s.check c = (do
    forM s.exprs Expr.check
    forM s.bodies fun body => checkAll (c.enter body.1) body.2) := by
  have hlast (x : Except PlacementError Unit) : (do x; .ok ()) = x := by cases x <;> rfl
  cases s with
  | functionDecl decl => simp [check, exprs, bodies, Surroundings.enter, FunctionDecl.check_eq]
  | classDecl name superclass body span =>
    simp [check, exprs, bodies, Surroundings.enter, checkOption_eq]
  | includeFile path span => rfl
  | ifElse condition success failure span =>
    cases failure <;> simp [check, exprs, bodies, Surroundings.enter, checkBranch, hlast]
  | loop condition body step testAfter span =>
    simp [check, exprs, bodies, Surroundings.enter, checkOption_eq]
  | breakLoop span | continueLoop span =>
    have hloops : c.loops ≠ 0 := by simpa [fault?] using h
    rw [check, if_neg hloops]
    rfl
  | returnValue value span =>
    have hfunction : c.inFunction = true := by simpa [fault?] using h
    simp [check, hfunction, exprs, bodies, checkOption_eq]
  | _ => simp [check, exprs, bodies, Surroundings.enter]

theorem sizeOf_lt_of_mem_exprs {s : Stmt} {e : Expr} (h : e ∈ s.exprs) : sizeOf e < sizeOf s := by
  cases s <;> grind [exprs]

theorem sizeOf_lt_of_mem_bodies {s : Stmt} {kind : Enclosure} {body : List Stmt}
    (h : (kind, body) ∈ s.bodies) : sizeOf body < sizeOf s := by
  cases s <;> grind [bodies, FunctionDecl.sizeOf_body_lt]

theorem Holds.sizeOf_lt {s t : Stmt} {kind : Enclosure} (h : s.Holds kind t) :
    sizeOf t < sizeOf s := by
  cases h with
  | body hmem ht =>
    exact Nat.lt_trans (List.sizeOf_lt_of_mem ht) (sizeOf_lt_of_mem_bodies hmem)
  | @literal e decl _ he hdecl ht =>
    have hbody : sizeOf t < sizeOf decl :=
      Nat.lt_trans (List.sizeOf_lt_of_mem ht) decl.sizeOf_body_lt
    have hliteral : sizeOf decl < sizeOf s :=
      Nat.lt_trans hdecl.sizeOf_lt (sizeOf_lt_of_mem_exprs he)
    exact Nat.lt_trans hbody hliteral

theorem fault?_eq_none {c : Surroundings} {s : Stmt} (h : s.check c = .ok ()) :
    s.fault? c = none := by
  cases hfault : s.fault? c with
  | none => rfl
  | some err =>
    rw [check_of_fault hfault] at h
    cases h

/-- What is inside a statement is checked with it. -/
theorem Holds.check_eq_ok {c : Surroundings} {s t : Stmt} {kind : Enclosure} (h : s.Holds kind t)
    (hs : s.check c = .ok ()) : t.check (c.enter kind) = .ok () := by
  rw [check_eq (fault?_eq_none hs), seq_eq_ok, forM_eq_ok_iff, forM_eq_ok_iff] at hs
  obtain ⟨hexprs, hbodies⟩ := hs
  cases h with
  | body hmem ht =>
    have hbody := hbodies _ hmem
    rw [checkAll_eq, forM_eq_ok_iff] at hbody
    exact hbody t ht
  | literal he hdecl ht =>
    have hbody := hdecl.check_eq_ok (hexprs _ he)
    rw [FunctionDecl.check_eq, checkAll_eq, forM_eq_ok_iff] at hbody
    exact hbody t ht

/-- What is wrong with a statement is wrong with itself or with what is inside it. -/
theorem exists_holds {c : Surroundings} {s : Stmt} {err : PlacementError}
    (h : s.check c = .error err) :
    s.fault? c = some err ∨ ∃ kind t, s.Holds kind t ∧ t.check (c.enter kind) = .error err := by
  cases hfault : s.fault? c with
  | some err' =>
    rw [check_of_fault hfault] at h
    cases h
    exact .inl rfl
  | none =>
    right
    rw [check_eq hfault] at h
    rcases seq_eq_error h with hexprs | hbodies
    · obtain ⟨e, he, herr⟩ := exists_of_forM_eq_error hexprs
      obtain ⟨decl, hdecl, herr⟩ := e.exists_literal herr
      rw [FunctionDecl.check_eq, checkAll_eq] at herr
      obtain ⟨t, ht, herr⟩ := exists_of_forM_eq_error herr
      exact ⟨.function, t, .literal he hdecl ht, herr⟩
    · obtain ⟨⟨kind, body⟩, hmem, herr⟩ := exists_of_forM_eq_error hbodies
      rw [checkAll_eq] at herr
      obtain ⟨t, ht, herr⟩ := exists_of_forM_eq_error herr
      exact ⟨kind, t, .body hmem ht, herr⟩

/-- Something is wrong with a statement itself if it is misplaced. -/
theorem fault?_of_misplaced {around : List Enclosure} {s : Stmt} {err : PlacementError}
    (h : Misplaced around s err) : s.fault? (.of around) = some err := by
  cases h with
  | breakLoop h | continueLoop h =>
    rw [← Surroundings.loops_of] at h
    simp [fault?, h]
  | returnValue h =>
    rw [← Surroundings.inFunction_of] at h
    simp [fault?, h]

theorem misplaced_of_fault {around : List Enclosure} {s : Stmt} {err : PlacementError}
    (h : s.fault? (.of around) = some err) : Misplaced around s err ∧ err.span = s.span := by
  cases s with
  | breakLoop span =>
    simp only [fault?] at h
    split at h
    · next hloops =>
      cases h
      exact ⟨.breakLoop ((Surroundings.loops_of around).mp hloops), rfl⟩
    · cases h
  | continueLoop span =>
    simp only [fault?] at h
    split at h
    · next hloops =>
      cases h
      exact ⟨.continueLoop ((Surroundings.loops_of around).mp hloops), rfl⟩
    · cases h
  | returnValue value span =>
    simp only [fault?] at h
    split at h
    · cases h
    · next hfunction =>
      cases h
      refine ⟨.returnValue ?_, rfl⟩
      rwa [← Surroundings.inFunction_of]
  | _ => cases h

end Stmt

namespace Program

/-- Every statement of a program that passes the check passes it where it stands. -/
theorem Places.check_eq_ok {p : Program} {around : List Enclosure} {s : Stmt}
    (h : p.Places around s) (hp : p.check = .ok ()) : s.check (.of around) = .ok () := by
  induction h with
  | top hs =>
    rw [check, checkAll_eq, forM_eq_ok_iff] at hp
    exact hp _ hs
  | inside _ hholds ih => exact hholds.check_eq_ok ih

/-- What the check finds wrong with a statement is misplaced inside it. -/
theorem Places.exists_misplaced {p : Program} {around : List Enclosure} {s : Stmt}
    {err : PlacementError} (h : p.Places around s) (herr : s.check (.of around) = .error err) :
    ∃ around t, p.Places around t ∧ Misplaced around t err ∧ err.span = t.span := by
  rcases Stmt.exists_holds herr with hfault | ⟨kind, t, hholds, herr⟩
  · exact ⟨around, s, h, Stmt.misplaced_of_fault hfault⟩
  · have hlt : sizeOf t < sizeOf s := hholds.sizeOf_lt
    exact (Places.inside h hholds).exists_misplaced herr
termination_by sizeOf s

theorem exists_misplaced {p : Program} {err : PlacementError} (h : p.check = .error err) :
    ∃ around s, p.Places around s ∧ Misplaced around s err ∧ err.span = s.span := by
  rw [check, checkAll_eq] at h
  obtain ⟨s, hs, herr⟩ := exists_of_forM_eq_error h
  exact (Places.top hs).exists_misplaced herr

theorem check_eq_ok_iff (p : Program) :
    p.check = .ok () ↔ ∀ around s err, p.Places around s → ¬ Misplaced around s err := by
  constructor
  · intro hp around s err hs hmisplaced
    have hcheck := hs.check_eq_ok hp
    rw [Stmt.check_of_fault (Stmt.fault?_of_misplaced hmisplaced)] at hcheck
    cases hcheck
  · intro hall
    cases hp : p.check with
    | ok _ => rfl
    | error err =>
      obtain ⟨around, s, hs, hmisplaced, -⟩ := exists_misplaced hp
      exact absurd hmisplaced (hall around s _ hs)

end Program

end Rill.Syntax
