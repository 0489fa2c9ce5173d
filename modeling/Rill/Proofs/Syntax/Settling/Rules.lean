import Rill.Proofs.Syntax.Settling

/-! The rules of the grammar with one more level of depth agree on one more piece. The grammar without
a bound on its depth is the limit of those with one. -/
namespace Rill.Syntax

open Token (Word Kind)
open Rill.Syntax.Parser

namespace Grammar

variable {g g' : Grammar} {n : Nat} {s : Prop} {i : Input}

/-! ### Operands -/

theorem settles_attributeRest (object : Expr) :
    Settles n s (attributeRest object) (attributeRest object) :=
  .bind settles_ident fun _ => .pure

theorem settles_classPath (room : Nat) (type : Expr) :
    Settles n s (classPath room type) (classPath room type) := by
  induction room generalizing type with
  | zero => exact .pure
  | succ room ih =>
    refine .bind (settles_skip _) fun found => ?_
    cases found with
    | true => exact .bind (settles_attributeRest type) fun type => ih type
    | false => exact .pure

theorem settles_classHead (hg : g.Settled n g') : Settles n s (classHead g) (classHead g') := by
  have hg := hg.mono (Nat.sub_le n 1)
  refine .next fun token => ?_
  split
  · exact .pure
  · exact .bind (hg.expression 0) fun _ => .bind (settles_symbol _) fun _ => .pure
  · exact .fail

theorem settles_classExpr (hg : g.Settled n g') : Settles n s (classExpr g) (classExpr g') :=
  .bind (settles_classHead hg) fun head => .bind settles_remaining fun room =>
    settles_classPath room head

theorem settles_createRest (hg : g.Settled n g') (start : Text.Span) :
    Settles n s (createRest g start) (createRest g' start) :=
  .bind (settles_classExpr hg) fun _ => .bind (settles_symbol _) fun _ =>
    .bind (settles_delimited hg _) fun _ => .pure

theorem settles_operand (hg : g.Settled n g') : Settles (n + 1) s (operand g) (operand g') := by
  refine .next fun token => ?_
  dsimp only
  split
  · exact .pure
  · exact .pure
  · exact .pure
  · exact .pure
  · exact .pure
  · exact .pure
  · exact .pure
  · exact .bind (settles_innerSequence hg) fun _ => .bind (settles_symbol _) fun _ => .pure
  · exact .bind (settles_delimited hg _) fun _ => .pure
  · exact settles_dictLiteral hg _
  · exact settles_functionLiteral hg _
  · exact settles_createRest hg _
  · split
    · exact .bind (hg.expression _) fun _ => .pure
    · exact .fail

/-! ### Operators -/

theorem settles_suffixRest (hg : g.Settled n g') (suffix : Suffix) (object : Expr) :
    Settles n s (suffixRest g suffix object) (suffixRest g' suffix object) := by
  cases suffix with
  | call => exact .bind (settles_delimited hg _) fun _ => .pure
  | subscript => exact .bind (hg.expression 0) fun _ => .bind (settles_symbol _) fun _ => .pure
  | dot => exact settles_attributeRest object

/-- The same operators are found, and what comes after them is read in the same way. -/
theorem settles_extension? (hg : g.Settled n g') (lhs : Expr) (token : Token) :
    (extension? g lhs token = none ∧ extension? g' lhs token = none) ∨
    ∃ power rest rest', extension? g lhs token = some (power, rest) ∧
      extension? g' lhs token = some (power, rest') ∧ Settles n False rest rest' := by
  unfold extension?
  split
  next suffix _ => exact .inr ⟨_, _, _, rfl, rfl, settles_suffixRest hg suffix lhs⟩
  next =>
  split
  next op _ => exact .inr ⟨_, _, _, rfl, rfl, .bind (hg.expression _) fun _ => .pure⟩
  next =>
  split
  next op _ => exact .inr ⟨_, _, _, rfl, rfl, .bind (hg.expression _) fun _ => .pure⟩
  next =>
  split
  next op _ =>
    refine .inr ⟨_, _, _, rfl, rfl, ?_⟩
    split
    next => exact .fail
    next => exact .bind (hg.expression _) fun _ => .pure
  next => exact .inl ⟨rfl, rfl⟩

theorem settles_extend (hg : g.Settled n g') (least room : Nat) (lhs : Expr) :
    Settles (n + 1) s (extend g least room lhs) (extend g' least room lhs) := by
  induction room generalizing lhs s with
  | zero => exact .pure
  | succ room ih =>
    refine .bind settles_peek fun token => ?_
    rcases settles_extension? hg lhs token with ⟨h, h'⟩ | ⟨power, rest, rest', h, h', hrest⟩
    · rw [h, h']
      exact .pure
    · rw [h, h']
      dsimp only
      split
      next => exact .pure
      next => exact .next fun _ => .bind hrest fun lhs => (ih lhs).mono (Nat.le_succ n)

theorem settles_expressionFrom (hg : g.Settled n g') (least : Nat) (lhs : Expr) :
    Settles (n + 1) s (expressionFrom g least lhs) (expressionFrom g' least lhs) :=
  .bind settles_remaining fun room => settles_extend hg least room lhs

theorem settles_expressionRule (hg : g.Settled n g') (least : Nat) :
    Settles (n + 1) s (expressionRule g least) (expressionRule g' least) :=
  .bind (settles_operand hg) fun lhs => settles_expressionFrom hg least lhs

theorem settles_sequenceRule (hg : g.Settled n g') :
    Settles (n + 1) s (sequenceRule g) (sequenceRule g') :=
  .bind (settles_expressionRule hg 0) fun first => settles_sequenceRest hg first

/-! ### Statements -/

theorem settles_sequenceUnless (hg : g.Settled n g') (terminator : Symbol) :
    Settles n s (sequenceUnless g terminator) (sequenceUnless g' terminator) := by
  refine .bind (settles_check _) fun found => ?_
  cases found with
  | true => exact .pure
  | false => exact .bind (settles_innerSequence hg) fun _ => .pure

theorem settles_includeRule : Settles n s includeRule includeRule :=
  .bind settles_expect fun _ => .bind settles_expect fun _ => .pure

theorem settles_returnRule (hg : g.Settled n g') :
    Settles (n + 1) s (returnRule g) (returnRule g') := by
  refine .expect fun start => .bind settles_peek fun token => ?_
  split
  · exact .pure
  · exact .pure
  · exact .pure
  · exact .bind (settles_innerSequence hg) fun _ => .pure

theorem settles_conditionalRule (hg : g.Settled n g') :
    Settles (n + 1) s (conditionalRule g) (conditionalRule g') := by
  refine .expect fun start => .bind (hg.expression 0) fun e => .bind (settles_block hg)
    fun success => .bind settles_eat? fun found => ?_
  cases found with
  | none => exact .pure
  | some other =>
    refine .check nofun (fun i hi hn hrest => ?_) ?_
    · exact (hg.conditional hi hn hrest).bind fun _ _ j _ hcut =>
        Settles.pure j (hcut.ended hi) (Nat.le_refl _)
    · exact .bind (settles_block hg) fun _ => .pure

theorem settles_whileRule (hg : g.Settled n g') :
    Settles (n + 1) s (whileRule g) (whileRule g') :=
  .expect fun _ => .bind (hg.expression 0) fun _ => .bind (settles_block hg) fun _ => .pure

theorem settles_doWhileRule (hg : g.Settled n g') :
    Settles (n + 1) s (doWhileRule g) (doWhileRule g') :=
  .expect fun _ => .bind (settles_block hg) fun _ => .bind settles_expect fun _ =>
    .bind (hg.expression 0) fun _ => .pure

theorem settles_forRule (hg : g.Settled n g') : Settles (n + 1) s (forRule g) (forRule g') := by
  refine .expect fun start => .bind (settles_skip _) fun found => ?_
  cases found with
  | true =>
    refine .bind (settles_sequenceUnless hg _) fun e => .bind (settles_symbol _) fun _ =>
      .bind (settles_sequenceUnless hg _) fun _ => .bind (settles_symbol _) fun _ =>
        .bind (settles_sequenceUnless hg _) fun _ => .bind (settles_symbol _) fun _ =>
          .bind (settles_block hg) fun _ => ?_
    cases e with
    | some e => exact .pure
    | none => exact .pure
  | false =>
    exact .bind settles_ident fun _ => .bind settles_expect fun _ => .bind (hg.expression 0)
      fun _ => .bind (settles_block hg) fun _ => .pure

theorem settles_moduleRule (hg : g.Settled n g') :
    Settles (n + 1) s (moduleRule g) (moduleRule g') :=
  .expect fun _ => .bind settles_ident fun _ => .bind (settles_block hg) fun _ => .pure

theorem settles_superclass? (hg : g.Settled n g') :
    Settles n s (superclass? g) (superclass? g') := by
  refine .bind (settles_skip _) fun found => ?_
  cases found with
  | true => exact .bind (hg.expression 0) fun _ => .bind (settles_symbol _) fun _ => .pure
  | false => exact .pure

theorem settles_classRule (hg : g.Settled n g') :
    Settles (n + 1) s (classRule g) (classRule g') :=
  .expect fun _ => .bind settles_ident fun _ => .bind (settles_superclass? hg) fun _ =>
    .bind (settles_block hg) fun _ => .pure

theorem settles_functionRule (hg : g.Settled n g') :
    Settles (n + 1) s (functionRule g) (functionRule g') := by
  refine .expect fun start => .bind (settles_check _) fun found => ?_
  cases found with
  | true =>
    refine .bind (settles_functionLiteral hg _) fun lhs => ?_
    exact .bind ((settles_expressionFrom hg 0 lhs).mono (Nat.le_succ n)) fun first =>
      .bind ((settles_sequenceRest hg first).mono (Nat.le_succ n)) fun _ => .pure
  | false => exact .bind settles_ident fun _ => .bind (settles_functionRest hg _ _) fun _ => .pure

theorem settles_bareStatement (hg : g.Settled n g') :
    Settles (n + 1) s (bareStatement g) (bareStatement g') := by
  refine .bind settles_peek fun token => ?_
  split
  · exact settles_includeRule
  · exact settles_returnRule hg
  · exact settles_conditionalRule hg
  · exact settles_whileRule hg
  · exact settles_doWhileRule hg
  · exact settles_forRule hg
  · exact .next fun _ => .pure
  · exact .next fun _ => .pure
  · exact settles_moduleRule hg
  · exact settles_classRule hg
  · exact settles_functionRule hg
  · exact .bind (settles_sequenceRule hg) fun _ => .pure

theorem settles_statementRule (hg : g.Settled n g') :
    Settles (n + 1) s (statementRule g) (statementRule g') :=
  .bind (settles_bareStatement hg) fun _ => .bind (settles_skip _) fun _ => .pure

/-! ### Any depth -/

/-- Where nothing is left, no operand is found. -/
theorem operand_of_nil (g : Grammar) (hi : i.Ended) (hrest : i.rest = []) :
    operand g i = noExpression i := by
  rw [noExpression_of_nil hrest, operand, bind_of_ok (next_of_nil hrest)]
  dsimp only
  rw [hi]
  rfl

theorem expressionRule_of_nil (g : Grammar) (least : Nat) (hi : i.Ended) (hrest : i.rest = []) :
    expressionRule g least i = noExpression i := by
  have h := operand_of_nil g hi hrest
  rw [noExpression_of_nil hrest] at h ⊢
  exact bind_of_error h

theorem statementRule_of_nil (g : Grammar) (hi : i.Ended) (hrest : i.rest = []) :
    statementRule g i = noExpression i := by
  have h := expressionRule_of_nil g 0 hi hrest
  rw [noExpression_of_nil hrest] at h ⊢
  refine bind_of_error ?_
  rw [hi] at h ⊢
  rw [bareStatement, bind_of_ok (peek_of_nil hrest), hi]
  exact bind_of_error (bind_of_error h)

/-- The grammars read alike wherever fewer pieces are left than here. -/
def SettledBelow (i : Input) (g g' : Grammar) : Prop := ∀ n < i.rest.length, g.Settled n g'

/-- A rule consults the grammar for its parts only after it has consumed a piece: grammars that read
alike from there on make the same rule. -/
theorem expressionRule_congr (h : SettledBelow i g g') (least : Nat) (hi : i.Ended) :
    expressionRule g least i = expressionRule g' least i := by
  cases hn : i.rest.length with
  | zero =>
    have hrest := List.length_eq_zero_iff.mp hn
    rw [expressionRule_of_nil g least hi hrest, expressionRule_of_nil g' least hi hrest]
  | succ n =>
    have hg : g.Settled n g' := h n (by omega)
    exact (settles_expressionRule (s := True) hg least i hi (Nat.le_of_eq hn)).agree

theorem statementRule_congr (h : SettledBelow i g g') (hi : i.Ended) :
    statementRule g i = statementRule g' i := by
  cases hn : i.rest.length with
  | zero =>
    have hrest := List.length_eq_zero_iff.mp hn
    rw [statementRule_of_nil g hi hrest, statementRule_of_nil g' hi hrest]
  | succ n =>
    have hg : g.Settled n g' := h n (by omega)
    exact (settles_statementRule (s := True) hg i hi (Nat.le_of_eq hn)).agree

/-- A nested `if` is read only where something is left. -/
theorem conditionalRule_congr (h : SettledBelow i g g') (hi : i.Ended) (hrest : i.rest ≠ []) :
    conditionalRule g i = conditionalRule g' i := by
  cases hn : i.rest.length with
  | zero => exact absurd (List.length_eq_zero_iff.mp hn) hrest
  | succ n =>
    have hg : g.Settled n g' := h n (by omega)
    exact (settles_conditionalRule (s := True) hg i hi (Nat.le_of_eq hn)).agree

theorem sober_ofDepth (depth : Nat) : (ofDepth depth).Sober := by
  refine ⟨sound_ofDepth depth, ?_, ?_⟩
  · cases depth with
    | zero => exact fun _ _ _ _ => rfl
    | succ depth => exact fun least _ => expressionRule_of_nil (ofDepth depth) least
  · cases depth with
    | zero => exact fun _ _ => rfl
    | succ depth => exact statementRule_of_nil (ofDepth depth)

/-- Two grammars that are deep enough agree. -/
theorem settled_ofDepth {depth depth' : Nat} (h : n ≤ depth) (h' : n ≤ depth') :
    (ofDepth depth).Settled n (ofDepth depth') := by
  induction n generalizing depth depth' with
  | zero =>
    have hnil {i : Input} (hn : i.rest.length ≤ 0) : i.rest = [] :=
      List.length_eq_zero_iff.mp (Nat.le_zero.mp hn)
    have hnone {α : Type} {p q : Parser α} {s : Prop} {i : Input} (hp : p i = noExpression i)
        (hq : q i = noExpression i) (hi : i.Ended) (hn : i.rest.length ≤ 0) :
        SettlesAt i s p q := by
      have hat : SettlesAt i s (noExpression : Parser α) noExpression :=
        settles_noExpression i hi hn
      exact ⟨hp.trans hq.symm, fun h => hat.ok (hp.symm.trans h),
        fun h => hat.error (hp.symm.trans h)⟩
    refine ⟨fun least _ i hi hn => ?_, fun i hi hn => ?_, fun hi hn hne => absurd (hnil hn) hne⟩
    · exact hnone ((sober_ofDepth depth).expression least hi (hnil hn))
        ((sober_ofDepth depth').expression least hi (hnil hn)) hi hn
    · exact hnone ((sober_ofDepth depth).statement hi (hnil hn))
        ((sober_ofDepth depth').statement hi (hnil hn)) hi hn
  | succ n ih =>
    obtain ⟨d, rfl⟩ : ∃ d, depth = d + 1 := ⟨depth - 1, by omega⟩
    obtain ⟨d', rfl⟩ : ∃ d', depth' = d' + 1 := ⟨depth' - 1, by omega⟩
    have hg : (ofDepth d).Settled n (ofDepth d') := ih (by omega) (by omega)
    exact ⟨fun least _ => settles_expressionRule hg least, settles_statementRule hg,
      fun hi hn _ => settles_conditionalRule hg _ hi hn⟩

/-- The grammar without a bound on its depth: as deep as what is left is long. -/
def unbounded : Grammar :=
  { expression := fun least i => (ofDepth i.rest.length).expression least i
    statement := fun i => (ofDepth i.rest.length).statement i
    conditional := fun i => (ofDepth i.rest.length).conditional i }

theorem sober_unbounded : unbounded.Sober :=
  ⟨⟨fun least i => (sound_ofDepth _).expression least i, fun i => (sound_ofDepth _).statement i,
    fun i => (sound_ofDepth _).conditional i⟩,
    fun least _ hi hrest => (sober_ofDepth _).expression least hi hrest,
    fun hi hrest => (sober_ofDepth _).statement hi hrest⟩

theorem settled_unbounded {depth : Nat} (h : n ≤ depth) : (ofDepth depth).Settled n unbounded := by
  have hg {i : Input} (hn : i.rest.length ≤ n) :
      (ofDepth depth).Settled i.rest.length (ofDepth i.rest.length) :=
    settled_ofDepth (Nat.le_trans hn h) (Nat.le_refl _)
  refine ⟨fun least s i hi hn => ?_, fun {s} i hi hn => ?_, fun {s i} hi hn hne => ?_⟩
  · have hat := (hg hn).expression least (s := s) i hi (Nat.le_refl _)
    exact ⟨hat.agree, hat.ok, hat.error⟩
  · have hat := (hg hn).statement (s := s) i hi (Nat.le_refl _)
    exact ⟨hat.agree, hat.ok, hat.error⟩
  · have hat := (hg hn).conditional (s := s) hi (Nat.le_refl _) hne
    exact ⟨hat.agree, hat.ok, hat.error⟩

/-- Where a piece is left, the grammar of the depth below is deep enough for what comes after it. -/
theorem settledBelow_unbounded {n : Nat} (hn : i.rest.length = n + 1) :
    SettledBelow i (ofDepth n) unbounded :=
  fun _ hlt => settled_unbounded (by omega)

/-- One rule of the grammar without a bound reads as the grammar does. -/
theorem unbounded_expression (least : Nat) (hi : i.Ended) :
    unbounded.expression least i = expressionRule unbounded least i := by
  cases hn : i.rest.length with
  | zero =>
    have hrest := List.length_eq_zero_iff.mp hn
    rw [sober_unbounded.expression least hi hrest, expressionRule_of_nil _ least hi hrest]
  | succ n =>
    have hrule : unbounded.expression least i = expressionRule (ofDepth n) least i := by
      change (ofDepth i.rest.length).expression least i = _
      rw [hn]
      rfl
    rw [hrule, expressionRule_congr (settledBelow_unbounded hn) least hi]

theorem unbounded_statement (hi : i.Ended) :
    unbounded.statement i = statementRule unbounded i := by
  cases hn : i.rest.length with
  | zero =>
    have hrest := List.length_eq_zero_iff.mp hn
    rw [sober_unbounded.statement hi hrest, statementRule_of_nil _ hi hrest]
  | succ n =>
    have hrule : unbounded.statement i = statementRule (ofDepth n) i := by
      change (ofDepth i.rest.length).statement i = _
      rw [hn]
      rfl
    rw [hrule, statementRule_congr (settledBelow_unbounded hn) hi]

theorem unbounded_conditional (hi : i.Ended) (hrest : i.rest ≠ []) :
    unbounded.conditional i = conditionalRule unbounded i := by
  cases hn : i.rest.length with
  | zero => exact absurd (List.length_eq_zero_iff.mp hn) hrest
  | succ n =>
    have hrule : unbounded.conditional i = conditionalRule (ofDepth n) i := by
      change (ofDepth i.rest.length).conditional i = _
      rw [hn]
      rfl
    rw [hrule, conditionalRule_congr (settledBelow_unbounded hn) hi hrest]

end Grammar

namespace Parser

open Grammar (unbounded)

variable {i : Input}

theorem expression_eq : expression = unbounded.expression 0 := rfl

theorem statement_eq : statement = unbounded.statement := rfl

theorem sequence_eq (hi : i.Ended) : sequence i = Grammar.innerSequence unbounded i := by
  rw [sequence, Grammar.innerSequence, expression_eq]
  cases h : unbounded.expression 0 i with
  | error e j => rw [bind_of_error h, bind_of_error h]
  | ok first j =>
    obtain ⟨_, hpast, -⟩ := Grammar.sober_unbounded.sound.inner i hi first j h
    have hg : (Grammar.ofDepth j.rest.length).Settled j.rest.length unbounded :=
      Grammar.settled_unbounded (Nat.le_refl _)
    have hrest := Grammar.settles_sequenceRest (s := True) hg first j (hpast.ended hi)
      (Nat.le_succ _)
    rw [bind_of_ok h, bind_of_ok h, bind_of_ok (remaining_eq j), hrest.agree]

end Parser
end Rill.Syntax
