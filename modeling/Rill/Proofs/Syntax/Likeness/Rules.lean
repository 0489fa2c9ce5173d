import Rill.Proofs.Syntax.Likeness

/-! Every rule of the grammar reads like inputs alike, so whole programs are read alike. -/
namespace Rill.Syntax

open Rill.Syntax.Parser
open Text (Span)

namespace Grammar

variable {P : Span → Span → Prop} {g : Grammar}

/-! ### Operands and operators -/

theorem alike_attributeRest {object object' : Expr} (h : object.bare = object'.bare) :
    AlikeExpr P (attributeRest object) (attributeRest object') := by
  apply Mirrors.bind alike_ident
  intro n m hnm
  apply Mirrors.pure
  rw [Expr.bare, Expr.bare, h, hnm]

theorem alike_classPath (room : Nat) {type type' : Expr} (h : type.bare = type'.bare) :
    AlikeExpr P (classPath room type) (classPath room type') := by
  induction room generalizing type type' with
  | zero => exact .pure h
  | succ room ih =>
    apply Mirrors.bind (alike_skip _)
    rintro found _ rfl
    cases found with
    | true =>
      apply Mirrors.bind (alike_attributeRest h)
      intro e f hef
      exact ih hef
    | false => exact .pure h

theorem alike_classHead (hg : g.Even P) : AlikeExpr P (classHead g) (classHead g) := by
  apply Mirrors.bind alike_next
  rintro _ _ ⟨hspan⟩
  dsimp only
  split
  · exact .pure rfl
  · apply Mirrors.bind (hg.expression 0)
    intro e f hef
    apply Mirrors.bind (alike_symbol _)
    intro stop stop' _
    apply Mirrors.pure
    rw [Expr.bare, Expr.bare, hef]
  · exact alike_fail _ hspan

theorem alike_classExpr (hg : g.Even P) : AlikeExpr P (classExpr g) (classExpr g) := by
  apply Mirrors.bind (alike_classHead hg)
  intro e f hef
  apply Mirrors.bind alike_remaining
  rintro room _ rfl
  exact alike_classPath room hef

theorem alike_createRest (hg : g.Even P) (start start' : Span) :
    AlikeExpr P (createRest g start) (createRest g start') := by
  apply Mirrors.bind (alike_classExpr hg)
  intro e f hef
  apply Mirrors.bind (alike_symbol _)
  intro _ _ _
  apply Mirrors.bind (alike_delimited hg _)
  intro p q hpq
  apply Mirrors.pure
  rw [Expr.bare, Expr.bare, hef, hpq]

theorem alike_operand (hg : g.Even P) : AlikeExpr P (operand g) (operand g) := by
  apply Mirrors.bind alike_next
  rintro _ _ ⟨hspan⟩
  dsimp only
  split
  case h_8 =>
    apply Mirrors.bind (alike_innerSequence hg)
    intro e f hef
    apply Mirrors.bind (alike_symbol _)
    intro stop stop' _
    apply Mirrors.pure
    rw [Expr.bare, Expr.bare, hef]
  case h_9 =>
    apply Mirrors.bind (alike_delimited hg _)
    intro p q hpq
    apply Mirrors.pure
    rw [Expr.bare, Expr.bare, hpq]
  case h_10 => exact alike_dictLiteral hg _ _
  case h_11 => exact alike_functionLiteral hg _ _
  case h_12 => exact alike_createRest hg _ _
  case h_13 =>
    split
    · apply Mirrors.bind (hg.expression _)
      intro e f hef
      apply Mirrors.pure
      rw [Expr.bare, Expr.bare, hef]
    · exact alike_fail _ hspan
  all_goals exact .pure rfl

theorem alike_suffixRest (hg : g.Even P) (suffix : Suffix) {object object' : Expr}
    (h : object.bare = object'.bare) :
    AlikeExpr P (suffixRest g suffix object) (suffixRest g suffix object') := by
  cases suffix with
  | call =>
    apply Mirrors.bind (alike_delimited hg _)
    intro p q hpq
    apply Mirrors.pure
    rw [Expr.bare, Expr.bare, h, hpq]
  | subscript =>
    apply Mirrors.bind (hg.expression 0)
    intro e f hef
    apply Mirrors.bind (alike_symbol _)
    intro stop stop' _
    apply Mirrors.pure
    rw [Expr.bare, Expr.bare, h, hef]
  | dot => exact alike_attributeRest h

theorem map_bare_target? (e : Expr) : e.target?.map Target.bare = e.bare.target? := by
  cases e with
  | atom a s => cases a <;> rfl
  | _ => rfl

/-- The same operators extend like operands, with readers that go alike. -/
theorem alike_extension? (hg : g.Even P) {lhs lhs' : Expr} (h : lhs.bare = lhs'.bare)
    {t u : Token} (htu : Token.Like P t u) :
    Option.Rel (fun p q => p.1 = q.1 ∧ AlikeExpr P p.2 q.2) (extension? g lhs t)
      (extension? g lhs' u) := by
  obtain ⟨hspan⟩ := htu
  unfold extension?
  dsimp only
  split
  · exact .some ⟨rfl, alike_suffixRest hg _ h⟩
  split
  · apply Option.Rel.some
    apply And.intro rfl
    apply Mirrors.bind (hg.expression _)
    intro e f hef
    apply Mirrors.pure
    rw [Expr.bare, Expr.bare, h, hef]
  split
  · apply Option.Rel.some
    apply And.intro rfl
    apply Mirrors.bind (hg.expression _)
    intro e f hef
    apply Mirrors.pure
    rw [Expr.bare, Expr.bare, h, hef]
  split
  -- Whether the left side can be assigned to shows in its bare form.
  · apply Option.Rel.some
    apply And.intro rfl
    have htarget : lhs.target?.map Target.bare = lhs'.target?.map Target.bare := by
      rw [map_bare_target?, map_bare_target?, h]
    generalize lhs.target? = target at htarget
    generalize lhs'.target? = target' at htarget
    cases target with
    | none =>
      cases target' with
      | none => exact alike_fail _ hspan
      | some => cases htarget
    | some target =>
      cases target' with
      | none => cases htarget
      | some target' =>
        have hbare : target.bare = target'.bare := Option.some.inj htarget
        apply Mirrors.bind (hg.expression _)
        intro e f hef
        apply Mirrors.pure
        rw [Expr.bare, Expr.bare, hbare, hef]
  · exact .none

theorem alike_extend (hg : g.Even P) (least room : Nat) {lhs lhs' : Expr}
    (h : lhs.bare = lhs'.bare) :
    AlikeExpr P (extend g least room lhs) (extend g least room lhs') := by
  induction room generalizing lhs lhs' with
  | zero => exact .pure h
  | succ room ih =>
    apply Mirrors.bind alike_peek
    intro t u htu
    have hrel := alike_extension? hg h htu
    generalize extension? g lhs t = found at hrel
    generalize extension? g lhs' u = found' at hrel
    cases hrel with
    | none => exact .pure h
    | @some p q hpq =>
      obtain ⟨power, rest⟩ := p
      obtain ⟨power', rest'⟩ := q
      obtain ⟨hpower, hrest⟩ := hpq
      dsimp only at hpower hrest ⊢
      subst hpower
      split
      · exact .pure h
      · apply Mirrors.bind alike_next
        intro _ _ _
        apply Mirrors.bind hrest
        intro e f hef
        exact ih hef

theorem alike_expressionFrom (hg : g.Even P) (least : Nat) {lhs lhs' : Expr}
    (h : lhs.bare = lhs'.bare) :
    AlikeExpr P (expressionFrom g least lhs) (expressionFrom g least lhs') := by
  apply Mirrors.bind alike_remaining
  rintro room _ rfl
  exact alike_extend hg least room h

theorem alike_expressionRule (hg : g.Even P) (least : Nat) :
    AlikeExpr P (expressionRule g least) (expressionRule g least) := by
  apply Mirrors.bind (alike_operand hg)
  intro e f hef
  exact alike_expressionFrom hg least hef

/-! ### Statements -/

theorem alike_sequenceRule (hg : g.Even P) : AlikeExpr P (sequenceRule g) (sequenceRule g) := by
  apply Mirrors.bind (alike_expressionRule hg 0)
  intro e f hef
  exact alike_sequenceRest hg hef

theorem alike_sequenceUnless (hg : g.Even P) (terminator : Symbol) :
    Alike P (fun e f => bareOption e = bareOption f) (sequenceUnless g terminator)
      (sequenceUnless g terminator) := by
  apply Mirrors.bind (alike_check _)
  rintro found _ rfl
  cases found with
  | true => exact .pure rfl
  | false =>
    apply Mirrors.bind (alike_innerSequence hg)
    intro e f hef
    apply Mirrors.pure
    rw [bareOption, bareOption, hef]

theorem alike_includeRule : AlikeStmt P includeRule includeRule := by
  apply Mirrors.bind (alike_keyword _)
  intro start start' _
  apply Mirrors.bind (alike_expect _)
  rintro _ _ ⟨-⟩
  exact .pure rfl

theorem alike_returnRule (hg : g.Even P) : AlikeStmt P (returnRule g) (returnRule g) := by
  apply Mirrors.bind (alike_keyword _)
  intro start start' _
  apply Mirrors.bind alike_peek
  rintro _ _ ⟨-⟩
  dsimp only
  split
  case h_4 =>
    apply Mirrors.bind (alike_innerSequence hg)
    intro e f hef
    apply Mirrors.pure
    rw [Stmt.bare, Stmt.bare, bareOption, bareOption, hef]
  all_goals exact .pure rfl

theorem alike_conditionalRule (hg : g.Even P) :
    AlikeStmt P (conditionalRule g) (conditionalRule g) := by
  apply Mirrors.bind (alike_keyword _)
  intro start start' _
  apply Mirrors.bind (hg.expression 0)
  intro condition condition' hcondition
  apply Mirrors.bind (alike_block hg)
  intro success success' hsuccess
  apply Mirrors.bind (alike_eat? _)
  intro found found' hfound
  cases hfound with
  | none =>
    apply Mirrors.pure
    rw [Stmt.bare, Stmt.bare, hcondition, hsuccess]
  | some =>
    apply Mirrors.bind (alike_check _)
    rintro again _ rfl
    cases again with
    | true =>
      apply Mirrors.bind hg.conditional
      intro s t hst
      apply Mirrors.pure
      simp only [Stmt.bare, hcondition, hsuccess, bareBranch, bareBody, hst]
    | false =>
      apply Mirrors.bind (alike_block hg)
      intro failure failure' hfailure
      apply Mirrors.pure
      rw [Stmt.bare, Stmt.bare, hcondition, hsuccess, bareBranch, bareBranch, hfailure]

theorem alike_whileRule (hg : g.Even P) : AlikeStmt P (whileRule g) (whileRule g) := by
  apply Mirrors.bind (alike_keyword _)
  intro start start' _
  apply Mirrors.bind (hg.expression 0)
  intro condition condition' hcondition
  apply Mirrors.bind (alike_block hg)
  intro body body' hbody
  apply Mirrors.pure
  simp only [Stmt.bare, bareOption, hcondition, hbody]

theorem alike_doWhileRule (hg : g.Even P) : AlikeStmt P (doWhileRule g) (doWhileRule g) := by
  apply Mirrors.bind (alike_keyword _)
  intro start start' _
  apply Mirrors.bind (alike_block hg)
  intro body body' hbody
  apply Mirrors.bind (alike_keyword _)
  intro _ _ _
  apply Mirrors.bind (hg.expression 0)
  intro condition condition' hcondition
  apply Mirrors.pure
  simp only [Stmt.bare, bareOption, hcondition, hbody]

theorem alike_forRule (hg : g.Even P) : AlikeStmt P (forRule g) (forRule g) := by
  apply Mirrors.bind (alike_keyword _)
  intro start start' _
  apply Mirrors.bind (alike_skip _)
  rintro found _ rfl
  cases found with
  | true =>
    apply Mirrors.bind (alike_sequenceUnless hg _)
    intro initializer initializer' hinitializer
    apply Mirrors.bind (alike_symbol _)
    intro _ _ _
    apply Mirrors.bind (alike_sequenceUnless hg _)
    intro condition condition' hcondition
    apply Mirrors.bind (alike_symbol _)
    intro _ _ _
    apply Mirrors.bind (alike_sequenceUnless hg _)
    intro step step' hstep
    apply Mirrors.bind (alike_symbol _)
    intro _ _ _
    apply Mirrors.bind (alike_block hg)
    intro body body' hbody
    cases initializer with
    | none =>
      cases initializer' with
      | none =>
        apply Mirrors.pure
        simp only [Stmt.bare, bareBody, hcondition, hbody, hstep]
      | some => cases hinitializer
    | some e =>
      cases initializer' with
      | none => cases hinitializer
      | some f =>
        have hef : e.bare = f.bare := Option.some.inj hinitializer
        apply Mirrors.pure
        simp only [Stmt.bare, bareBody, hef, hcondition, hbody, hstep]
  | false =>
    apply Mirrors.bind alike_ident
    intro element element' helement
    apply Mirrors.bind (alike_keyword _)
    intro _ _ _
    apply Mirrors.bind (hg.expression 0)
    intro iterable iterable' hiterable
    apply Mirrors.bind (alike_block hg)
    intro body body' hbody
    apply Mirrors.pure
    rw [Stmt.bare, Stmt.bare, helement, hiterable, hbody]

theorem alike_moduleRule (hg : g.Even P) : AlikeStmt P (moduleRule g) (moduleRule g) := by
  apply Mirrors.bind (alike_keyword _)
  intro start start' _
  apply Mirrors.bind alike_ident
  intro name name' hname
  apply Mirrors.bind (alike_block hg)
  intro body body' hbody
  apply Mirrors.pure
  rw [Stmt.bare, Stmt.bare, hname, hbody]

theorem alike_superclass? (hg : g.Even P) :
    Alike P (fun e f => bareOption e = bareOption f) (superclass? g) (superclass? g) := by
  apply Mirrors.bind (alike_skip _)
  rintro found _ rfl
  cases found with
  | true =>
    apply Mirrors.bind (hg.expression 0)
    intro e f hef
    apply Mirrors.bind (alike_symbol _)
    intro _ _ _
    apply Mirrors.pure
    rw [bareOption, bareOption, hef]
  | false => exact .pure rfl

theorem alike_classRule (hg : g.Even P) : AlikeStmt P (classRule g) (classRule g) := by
  apply Mirrors.bind (alike_keyword _)
  intro start start' _
  apply Mirrors.bind alike_ident
  intro name name' hname
  apply Mirrors.bind (alike_superclass? hg)
  intro superclass superclass' hsuperclass
  apply Mirrors.bind (alike_block hg)
  intro body body' hbody
  apply Mirrors.pure
  rw [Stmt.bare, Stmt.bare, hname, hsuperclass, hbody]

theorem alike_functionRule (hg : g.Even P) : AlikeStmt P (functionRule g) (functionRule g) := by
  apply Mirrors.bind (alike_keyword _)
  intro start start' _
  apply Mirrors.bind (alike_check _)
  rintro literal _ rfl
  cases literal with
  | true =>
    apply Mirrors.bind (alike_functionLiteral hg _ _)
    intro lhs lhs' hlhs
    apply Mirrors.bind (alike_expressionFrom hg 0 hlhs)
    intro first first' hfirst
    apply Mirrors.bind (alike_sequenceRest hg hfirst)
    intro e f hef
    apply Mirrors.pure
    rw [Stmt.bare, Stmt.bare, hef]
  | false =>
    apply Mirrors.bind alike_ident
    intro name name' hname
    apply Mirrors.bind (alike_functionRest hg hname _ _)
    intro d d' hd
    apply Mirrors.pure
    rw [Stmt.bare, Stmt.bare, hd]

theorem alike_bareStatement (hg : g.Even P) :
    AlikeStmt P (bareStatement g) (bareStatement g) := by
  apply Mirrors.bind alike_peek
  rintro _ _ ⟨-⟩
  dsimp only
  split
  · exact alike_includeRule
  · exact alike_returnRule hg
  · exact alike_conditionalRule hg
  · exact alike_whileRule hg
  · exact alike_doWhileRule hg
  · exact alike_forRule hg
  · apply Mirrors.bind alike_next
    intro _ _ _
    exact .pure rfl
  · apply Mirrors.bind alike_next
    intro _ _ _
    exact .pure rfl
  · exact alike_moduleRule hg
  · exact alike_classRule hg
  · exact alike_functionRule hg
  · apply Mirrors.bind (alike_sequenceRule hg)
    intro e f hef
    apply Mirrors.pure
    rw [Stmt.bare, Stmt.bare, hef]

theorem alike_statementRule (hg : g.Even P) :
    AlikeStmt P (statementRule g) (statementRule g) := by
  apply Mirrors.bind (alike_bareStatement hg)
  intro s t hst
  apply Mirrors.bind (alike_skip _)
  rintro _ _ rfl
  exact .pure hst

theorem even_ofDepth (depth : Nat) : (ofDepth depth).Even P := by
  induction depth with
  | zero => exact ⟨fun _ => alike_noExpression, alike_noExpression, alike_noExpression⟩
  | succ depth ih =>
    exact ⟨alike_expressionRule ih, alike_statementRule ih, alike_conditionalRule ih⟩

end Grammar

namespace Parser

variable {P : Span → Span → Prop}

theorem alike_statement : Grammar.AlikeStmt P statement statement := by
  apply Mirrors.bind alike_remaining
  rintro room _ rfl
  exact (Grammar.even_ofDepth room).statement

theorem alike_statements (room : Nat) {body body' : List Stmt}
    (h : bareBody body = bareBody body') :
    Alike P (fun ss ts => bareBody ss = bareBody ts) (statements room body)
      (statements room body') := by
  induction room generalizing body body' with
  | zero => exact .pure h
  | succ room ih =>
    apply Mirrors.bind alike_remaining
    rintro rest _ rfl
    apply Mirrors.bind (alike_skipSemicolons _)
    rintro _ _ rfl
    apply Mirrors.bind (alike_check _)
    rintro atEnd _ rfl
    cases atEnd with
    | true => exact .pure h
    | false =>
      apply Mirrors.bind alike_statement
      intro s t hst
      exact ih (by rw [bareBody, bareBody, hst, h])

/-- Like inputs hold programs that are the same up to places, or fail with one fault at related
places. -/
theorem alike_program : Alike P (fun p q => p.bare = q.bare) program program := by
  apply Mirrors.bind alike_remaining
  rintro room _ rfl
  apply Mirrors.bind (alike_statements room rfl)
  intro ss ts hbody
  exact .pure (Grammar.bareBody_reverse hbody)

end Parser
end Rill.Syntax
