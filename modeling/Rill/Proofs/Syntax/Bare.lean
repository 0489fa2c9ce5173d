import Rill.Proofs.Syntax.Spelling

/-! Trees without the places of their parts. -/
namespace Rill.Syntax

def Ident.bare (n : Ident) : Ident := ⟨n.name, default⟩

mutual

/-- The tree with the same span everywhere. -/
def Expr.bare : Expr → Expr
  | .atom a _ => .atom a default
  | .group inner _ => .group inner.bare default
  | .sequence parts _ => .sequence (bareAll parts) default
  | .unary op operand _ => .unary op operand.bare default
  | .binary op lhs rhs _ => .binary op lhs.bare rhs.bare default
  | .logic op lhs rhs _ => .logic op lhs.bare rhs.bare default
  | .assign op target value _ => .assign op target.bare value.bare default
  | .call callee arguments _ => .call callee.bare (bareAll arguments) default
  | .create type arguments _ => .create type.bare (bareAll arguments) default
  | .subscript object index _ => .subscript object.bare index.bare default
  | .attr object name _ => .attr object.bare name.bare default
  | .function decl => .function decl.bare
  | .list elements _ => .list (bareAll elements) default
  | .dict entries _ => .dict (bareEntries entries) default

def Target.bare : Target → Target
  | .var name => .var name.bare
  | .attr object name _ => .attr object.bare name.bare default
  | .subscript object index _ => .subscript object.bare index.bare default

def FunctionDecl.bare : FunctionDecl → FunctionDecl
  | ⟨name, parameters, body, _⟩ => ⟨name.bare, parameters.map Ident.bare, bareBody body, default⟩

def Stmt.bare : Stmt → Stmt
  | .functionDecl decl => .functionDecl decl.bare
  | .moduleDecl name body _ => .moduleDecl name.bare (bareBody body) default
  | .classDecl name superclass body _ =>
    .classDecl name.bare (bareOption superclass) (bareBody body) default
  | .block body _ => .block (bareBody body) default
  | .includeFile path _ => .includeFile path default
  | .expr value => .expr value.bare
  | .ifElse condition success failure _ =>
    .ifElse condition.bare (bareBody success) (bareBranch failure) default
  | .loop condition body step testAfter _ =>
    .loop (bareOption condition) (bareBody body) (bareOption step) testAfter default
  | .forEach element iterable body _ =>
    .forEach element.bare iterable.bare (bareBody body) default
  | .breakLoop _ => .breakLoop default
  | .continueLoop _ => .continueLoop default
  | .returnValue value _ => .returnValue (bareOption value) default

def bareAll : List Expr → List Expr
  | [] => []
  | e :: es => e.bare :: bareAll es

def bareEntries : List (Expr × Expr) → List (Expr × Expr)
  | [] => []
  | (k, v) :: es => (k.bare, v.bare) :: bareEntries es

def bareOption : Option Expr → Option Expr
  | none => none
  | some e => some e.bare

def bareBody : List Stmt → List Stmt
  | [] => []
  | s :: ss => s.bare :: bareBody ss

def bareBranch : Option (List Stmt) → Option (List Stmt)
  | none => none
  | some body => some (bareBody body)

end

/-- The program with the same span everywhere. -/
abbrev Program.bare (p : Program) : Program := bareBody p

/-! ### Nothing is left to take away -/

theorem Ident.bare_bare (n : Ident) : n.bare.bare = n.bare := rfl

theorem map_bare_bare (ns : List Ident) :
    (ns.map Ident.bare).map Ident.bare = ns.map Ident.bare := by
  rw [List.map_map]
  rfl

mutual

theorem Expr.bare_bare : (e : Expr) → e.bare.bare = e.bare
  | .atom _ _ => rfl
  | .group inner _ => by simp only [Expr.bare, Expr.bare_bare inner]
  | .sequence parts _ => by simp only [Expr.bare, bareAll_bareAll parts]
  | .unary _ operand _ => by simp only [Expr.bare, Expr.bare_bare operand]
  | .binary _ lhs rhs _ => by simp only [Expr.bare, Expr.bare_bare lhs, Expr.bare_bare rhs]
  | .logic _ lhs rhs _ => by simp only [Expr.bare, Expr.bare_bare lhs, Expr.bare_bare rhs]
  | .assign _ target value _ => by
    simp only [Expr.bare, Target.bare_bare target, Expr.bare_bare value]
  | .call callee arguments _ => by
    simp only [Expr.bare, Expr.bare_bare callee, bareAll_bareAll arguments]
  | .create type arguments _ => by
    simp only [Expr.bare, Expr.bare_bare type, bareAll_bareAll arguments]
  | .subscript object index _ => by
    simp only [Expr.bare, Expr.bare_bare object, Expr.bare_bare index]
  | .attr object _ _ => by simp only [Expr.bare, Expr.bare_bare object, Ident.bare_bare]
  | .function decl => by simp only [Expr.bare, FunctionDecl.bare_bare decl]
  | .list elements _ => by simp only [Expr.bare, bareAll_bareAll elements]
  | .dict entries _ => by simp only [Expr.bare, bareEntries_bareEntries entries]

theorem Target.bare_bare : (t : Target) → t.bare.bare = t.bare
  | .var _ => rfl
  | .attr object _ _ => by simp only [Target.bare, Expr.bare_bare object, Ident.bare_bare]
  | .subscript object index _ => by
    simp only [Target.bare, Expr.bare_bare object, Expr.bare_bare index]

theorem FunctionDecl.bare_bare : (d : FunctionDecl) → d.bare.bare = d.bare
  | ⟨_, parameters, body, _⟩ => by
    simp only [FunctionDecl.bare, Ident.bare_bare, map_bare_bare parameters, bareBody_bareBody body]

theorem Stmt.bare_bare : (s : Stmt) → s.bare.bare = s.bare
  | .functionDecl decl => by simp only [Stmt.bare, FunctionDecl.bare_bare decl]
  | .moduleDecl _ body _ => by simp only [Stmt.bare, Ident.bare_bare, bareBody_bareBody body]
  | .classDecl _ superclass body _ => by
    simp only [Stmt.bare, Ident.bare_bare, bareOption_bareOption superclass, bareBody_bareBody body]
  | .block body _ => by simp only [Stmt.bare, bareBody_bareBody body]
  | .includeFile _ _ | .breakLoop _ | .continueLoop _ => rfl
  | .expr value => by simp only [Stmt.bare, Expr.bare_bare value]
  | .ifElse condition success failure _ => by
    simp only [Stmt.bare, Expr.bare_bare condition, bareBody_bareBody success,
      bareBranch_bareBranch failure]
  | .loop condition body step _ _ => by
    simp only [Stmt.bare, bareOption_bareOption condition, bareBody_bareBody body,
      bareOption_bareOption step]
  | .forEach _ iterable body _ => by
    simp only [Stmt.bare, Ident.bare_bare, Expr.bare_bare iterable, bareBody_bareBody body]
  | .returnValue value _ => by simp only [Stmt.bare, bareOption_bareOption value]

theorem bareAll_bareAll : (es : List Expr) → bareAll (bareAll es) = bareAll es
  | [] => rfl
  | e :: es => by simp only [bareAll, Expr.bare_bare e, bareAll_bareAll es]

theorem bareEntries_bareEntries :
    (es : List (Expr × Expr)) → bareEntries (bareEntries es) = bareEntries es
  | [] => rfl
  | (k, v) :: es => by
    simp only [bareEntries, Expr.bare_bare k, Expr.bare_bare v, bareEntries_bareEntries es]

theorem bareOption_bareOption : (e : Option Expr) → bareOption (bareOption e) = bareOption e
  | none => rfl
  | some e => by simp only [bareOption, Expr.bare_bare e]

theorem bareBody_bareBody : (ss : List Stmt) → bareBody (bareBody ss) = bareBody ss
  | [] => rfl
  | s :: ss => by simp only [bareBody, Stmt.bare_bare s, bareBody_bareBody ss]

theorem bareBranch_bareBranch :
    (b : Option (List Stmt)) → bareBranch (bareBranch b) = bareBranch b
  | none => rfl
  | some body => by simp only [bareBranch, bareBody_bareBody body]

end

/-- What looks like a target can be assigned to. -/
theorem exists_target? {e : Expr} {target : Target} (h : e.bare = target.toExpr.bare) :
    ∃ target', e.target? = some target' ∧ target'.bare = target.bare := by
  cases target with
  | var name =>
    cases e with
    | atom a s =>
      simp only [Target.toExpr, Expr.bare, Expr.atom.injEq, and_true] at h
      subst h
      exact ⟨_, rfl, by simp [Target.bare, Ident.bare]⟩
    | _ => cases h
  | attr object name s =>
    cases e with
    | attr object' name' s' =>
      simp only [Target.toExpr, Expr.bare, Expr.attr.injEq, and_true] at h
      exact ⟨_, rfl, by simp [Target.bare, h]⟩
    | _ => cases h
  | subscript object index s =>
    cases e with
    | subscript object' index' s' =>
      simp only [Target.toExpr, Expr.bare, Expr.subscript.injEq, and_true] at h
      exact ⟨_, rfl, by simp [Target.bare, h]⟩
    | _ => cases h

end Rill.Syntax
