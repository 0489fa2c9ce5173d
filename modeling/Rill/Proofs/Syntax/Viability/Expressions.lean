import Rill.Proofs.Syntax.Viability

/-! Readers of expressions decide on the next token alone. -/
namespace Rill

namespace Token.Kind

/-- What extends no operand. -/
def afterExpr : Set Kind := {k | k.leftPower? = none}

/-- What extends no sequence. -/
def afterSequence : Set Kind := afterExpr \ {.symbol .comma}

/-- What ends a body. -/
def afterStmt : Set Kind := {.symbol .rightBrace, .eof}

theorem semicolon_not_mem_afterStmt : .symbol .semicolon ∉ afterStmt := by
  rintro (⟨⟨⟩⟩ | ⟨⟨⟩⟩)

end Token.Kind

namespace Syntax

open Token (Kind)
open Token.Kind (afterExpr afterSequence afterStmt)
open Rill.Syntax.Parser

theorem afterSequence_subset : afterSequence ⊆ afterExpr := fun _ h => h.1

/-- There is something for the readers of the grammar to read. -/
structure Grammar.Open (g : Grammar) : Prop where
  sober : g.Sober
  expression (least : Nat) {K : Set Kind} : .ident ∈ K →
    Opens K (fun _ => afterExpr) (g.expression least)
  statement {K : Set Kind} : .ident ∈ K → Opens K (fun _ => afterStmt) g.statement

/-- The readers of the grammar are viable wherever fewer than `n` tokens are left. A nested `if` is
read only where there is its keyword. -/
structure Grammar.Guided (n : Nat) (g : Grammar) : Prop extends g.Open where
  viable_expression (least : Nat) : Viable n ∅ (fun _ => afterExpr) (g.expression least)
  viable_statement : Viable n ∅ (fun _ => afterStmt) g.statement
  viable_conditional {i : Input} {t : Token} : i.Clean → i.rest.length < n → i.Next t →
    t.kind = .keyword .ifWord → ViableAt i ∅ (fun _ => {.keyword .elseWord}ᶜ) g.conditional

namespace Grammar

variable {g : Grammar} {n : Nat} {H J K : Set Kind}

theorem Guided.guides_expression (hg : g.Guided n) (least : Nat) (hK : .ident ∈ K) :
    Guides n J K (fun _ => afterExpr) (g.expression least) :=
  ⟨(hg.viable_expression least).mono (Set.empty_subset J) fun _ => subset_rfl,
    hg.expression least hK⟩

theorem Guided.guides_statement (hg : g.Guided n) (hK : .ident ∈ K) :
    Guides n J K (fun _ => afterStmt) g.statement :=
  ⟨hg.viable_statement.mono (Set.empty_subset J) fun _ => subset_rfl, hg.statement hK⟩

/-! ### Lists of expressions -/

theorem opens_sequenceParts (hg : g.Sober) (parts : List Expr) (hK : afterSequence ⊆ K) :
    Opens K (fun _ => afterSequence) (do sequenceParts g (← remaining) parts) := by
  refine (loops_sequenceParts hg.sound).opens ?_
  simp only [sequencePass, bind_assoc]
  exact .skip_false (.pure fun k hk => ⟨hK hk, hk.2⟩)

theorem guides_sequenceParts (hg : g.Guided n) (parts : List Expr) (hK : afterSequence ⊆ K) :
    Guides n K K (fun _ => afterSequence) (do sequenceParts g (← remaining) parts) := by
  refine ⟨(loops_sequenceParts hg.sober.sound).viable afterSequence_subset
    (fun parts => opens_sequenceParts hg.sober parts afterSequence_subset) (fun parts J hJ => ?_)
    parts hK,
    opens_sequenceParts hg.sober parts hK⟩
  refine .skip ?_ (.pure fun k hk => ⟨hJ hk, hk.2⟩)
  exact (hg.guides_expression 0 (Set.mem_univ _)).bind fun part => .pure subset_rfl

theorem opens_sequenceRest (hg : g.Sober) (first : Expr) (hK : afterSequence ⊆ K) :
    Opens K (fun _ => afterSequence) (sequenceRest g first) := by
  rw [sequenceRest, ← bind_assoc]
  refine (opens_sequenceParts hg [] hK).bind fun parts => ?_
  split <;> exact .pure subset_rfl

theorem guides_sequenceRest (hg : g.Guided n) (first : Expr) (hK : afterSequence ⊆ K) :
    Guides n K K (fun _ => afterSequence) (sequenceRest g first) := by
  rw [sequenceRest, ← bind_assoc]
  refine (guides_sequenceParts hg [] hK).bind fun parts => ?_
  split <;> exact .pure subset_rfl

theorem guides_innerSequence (hg : g.Guided n) (hK : .ident ∈ K) :
    Guides n J K (fun _ => afterSequence) (innerSequence g) :=
  (hg.guides_expression 0 hK).bind fun first => guides_sequenceRest hg first afterSequence_subset

theorem opens_delimitedParts (hg : g.Sober) (closing : Symbol) (parts : List Expr) :
    Opens Set.univ (fun _ => Set.univ) (do delimitedParts g closing (← remaining) parts) := by
  refine (loops_delimitedParts hg closing).opens ?_
  simp only [delimitedPass, bind_assoc]
  exact .eat?_some (Token.Kind.writable_symbol closing) trivial fun stop => .pure subset_rfl

theorem guides_delimited (hg : g.Guided n) {closing : Symbol}
    (hclosing : .symbol closing ∈ afterSequence) :
    Guides n Set.univ Set.univ (fun _ => Set.univ) (delimited g closing) := by
  rw [delimited, ← bind_assoc]
  refine .bind ⟨(loops_delimitedParts hg.sober closing).viable subset_rfl
    (opens_delimitedParts hg.sober closing) (fun parts J hJ => ?_) [] subset_rfl,
    opens_delimitedParts hg.sober closing []⟩ fun _ => .pure subset_rfl
  refine .eat? nofun (fun stop => .pure subset_rfl) ?_
  refine (hg.guides_expression 0 (Set.mem_univ _)).viable.bind fun part => ?_
  exact .skip_false (.pure subset_rfl) ((guides_symbol hclosing).bind fun stop => .pure subset_rfl)

theorem opens_dictEntries (hg : g.Sober) (entries : List (Expr × Expr)) :
    Opens Set.univ (fun _ => Set.univ) (do dictEntries g (← remaining) entries) := by
  refine (loops_dictEntries hg).opens ?_
  simp only [entryPass, bind_assoc]
  exact .eat?_some (Token.Kind.writable_symbol .rightBrace) trivial fun stop => .pure subset_rfl

theorem guides_dictLiteral (hg : g.Guided n) (start : Text.Span) :
    Guides n Set.univ Set.univ (fun _ => Set.univ) (dictLiteral g start) := by
  rw [dictLiteral, ← bind_assoc]
  refine .bind ⟨(loops_dictEntries hg.sober).viable subset_rfl (opens_dictEntries hg.sober)
    (fun entries J hJ => ?_) [] subset_rfl, opens_dictEntries hg.sober []⟩
    fun _ => .pure subset_rfl
  refine .eat? nofun (fun stop => .pure subset_rfl) ?_
  have hcolon : .symbol .colon ∈ afterExpr := rfl
  have hclosing : .symbol .rightBrace ∈ afterSequence := ⟨rfl, nofun⟩
  refine (hg.guides_expression 0 (Set.mem_univ _)).viable.bind fun key =>
    (guides_symbol hcolon).bind fun _ =>
      (hg.guides_expression 0 (Set.mem_univ _)).bind fun value => ?_
  exact .skip_false (.pure subset_rfl) ((guides_symbol hclosing).bind fun stop => .pure subset_rfl)

/-! ### Blocks and functions -/

theorem opens_skipSemicolons (hK : H ⊆ K) (hH : .symbol .semicolon ∉ H) :
    Opens K (fun _ => H) (do skipSemicolons (← remaining)) := by
  refine loops_skipSemicolons.opens (s := ()) ?_
  simp only [semicolonPass, bind_assoc]
  refine .skip_false (.pure fun k hk => ⟨hK hk, ?_⟩)
  rintro rfl
  exact hH hk

theorem guides_skipSemicolons (hK : H ⊆ K) (hH : .symbol .semicolon ∉ H) :
    Guides n K K (fun _ => H) (do skipSemicolons (← remaining)) := by
  refine ⟨loops_skipSemicolons.viable (Set.subset_univ H)
    (fun _ => opens_skipSemicolons (Set.subset_univ H) hH) (fun _ J hJ => ?_) () hK,
    opens_skipSemicolons hK hH⟩
  refine .skip (.pure subset_rfl) (.pure fun k hk => ⟨hJ hk, ?_⟩)
  rintro rfl
  exact hH hk

theorem viable_unclosed {α : Type} {H : α → Set Kind} : Viable n J H (unclosed : Parser α) :=
  .next fun _ => .inl ⟨_, rfl⟩

theorem opens_blockStatements (hg : g.Sober) (body : List Stmt) (hK : afterStmt ⊆ K) :
    Opens K (fun _ => Set.univ) (do blockStatements g (← remaining) body) := by
  refine (loops_blockStatements hg.sound).opens ?_
  simp only [blockPass, bind_assoc]
  rw [← bind_assoc]
  refine (opens_skipSemicolons hK Token.Kind.semicolon_not_mem_afterStmt).bind fun _ => ?_
  exact .eat?_some (Token.Kind.writable_symbol .rightBrace) (.inl rfl) fun stop => .pure subset_rfl

theorem guides_block (hg : g.Guided n) (hK : .symbol .leftBrace ∈ K) :
    Guides n J K (fun _ => Set.univ) (block g) := by
  simp only [block]
  refine (guides_symbol hK).bind fun start => ?_
  rw [← bind_assoc]
  refine .bind ⟨(loops_blockStatements hg.sober.sound).viable subset_rfl
    (fun body => opens_blockStatements hg.sober body subset_rfl) (fun body J hJ => ?_) []
    (Set.subset_univ _), opens_blockStatements hg.sober [] (Set.subset_univ _)⟩
    fun _ => .pure subset_rfl
  rw [blockPass, ← bind_assoc]
  have hskip := guides_skipSemicolons (n := n) hJ Token.Kind.semicolon_not_mem_afterStmt
  refine hskip.viable.bind fun _ => .eat?_some (Token.Kind.symbol_ne_eof .rightBrace)
    (Token.Kind.writable_symbol .rightBrace) (.inl rfl) (fun stop => .pure subset_rfl) ?_
  refine .check (fun i t hi hn _ _ => viable_unclosed i hi hn) ?_
  exact (hg.guides_statement (Set.mem_univ _)).viable.bind fun statement => .pure subset_rfl

theorem guides_ident (hK : .ident ∈ K) : Guides n J K (fun _ => Set.univ) ident :=
  (guides_expect (k := .ident) nofun Token.Kind.writable_ident hK).bind fun _ => .pure subset_rfl

theorem guides_parameterNames (hK : .ident ∈ K) :
    Guides n J K (fun _ => {.symbol .comma}ᶜ) (do parameterNames (← remaining) []) := by
  have hopens (names : List Ident) {K : Set Kind} (hK : .ident ∈ K) :
      Opens K (fun _ => {.symbol .comma}ᶜ) (do parameterNames (← remaining) names) := by
    refine loops_parameterNames.opens ?_
    simp only [parameterPass, bind_assoc]
    refine (guides_ident (n := 0) (J := K) hK).opens.bind fun name => ?_
    exact .skip_false (.pure fun k hk => ⟨trivial, hk⟩)
  refine ⟨loops_parameterNames.viable (Set.empty_subset Set.univ)
    (fun names => hopens names (Set.mem_univ _)) (fun names J _ => ?_) [] (Set.empty_subset J),
    hopens [] hK⟩
  refine (guides_ident (Set.mem_univ _)).viable.bind fun name => ?_
  exact .skip_false (.pure subset_rfl) (.pure fun k hk => ⟨trivial, hk⟩)

theorem guides_parameterList :
    Guides n Set.univ Set.univ (fun _ => Set.univ) parameterList := by
  have hclosing : .symbol .rightParen ∈ ({.symbol .comma}ᶜ : Set Kind) := nofun
  refine .skip_true trivial (.pure subset_rfl) ?_
  rw [if_neg Bool.false_ne_true, ← bind_assoc]
  exact (guides_parameterNames (Set.mem_univ _)).viable.bind fun names =>
    (guides_symbol hclosing).bind fun _ => .pure subset_rfl

theorem guides_functionRest (hg : g.Guided n) (name : Ident) (start : Text.Span)
    (hK : .symbol .leftParen ∈ K) : Guides n J K (fun _ => Set.univ) (functionRest g name start) :=
  (guides_symbol hK).bind fun _ => guides_parameterList.bind fun _ =>
    (guides_block hg (Set.mem_univ _)).bind fun _ => .pure subset_rfl

theorem guides_functionLiteral (hg : g.Guided n) (start : Text.Span)
    (hK : .symbol .leftParen ∈ K) : Guides n J K (fun _ => Set.univ) (functionLiteral g start) :=
  (guides_functionRest hg _ start hK).bind fun _ => .pure subset_rfl

/-! ### Operands -/

theorem guides_attributeRest (object : Expr) (hK : .ident ∈ K) :
    Guides n J K (fun _ => Set.univ) (attributeRest object) :=
  (guides_ident hK).bind fun _ => .pure subset_rfl

theorem guides_classPath (type : Expr) :
    Guides n Set.univ Set.univ (fun _ => {.symbol .dot}ᶜ) (do classPath (← remaining) type) := by
  have hopens (type : Expr) :
      Opens Set.univ (fun _ => {.symbol .dot}ᶜ) (do classPath (← remaining) type) := by
    refine loops_classPath.opens ?_
    simp only [classPass, bind_assoc]
    exact .skip_false (.pure fun k hk => ⟨trivial, hk⟩)
  refine ⟨loops_classPath.viable subset_rfl hopens (fun type J hJ => ?_) type subset_rfl,
    hopens type⟩
  refine .skip ?_ (.pure fun k hk => ⟨hJ trivial, hk⟩)
  exact (guides_attributeRest type (Set.mem_univ _)).bind fun _ => .pure subset_rfl

theorem guides_classHead (hg : g.Guided n) (hK : .ident ∈ K) :
    Guides n J K (fun _ => Set.univ) (classHead g) := by
  refine ⟨.next fun token => ?_, .next Token.Kind.writable_ident hK fun token hkind => ?_⟩
  · split
    next hkind => exact .inr ⟨by rw [hkind]; nofun, .pure subset_rfl⟩
    next hkind =>
      have hclosing : .symbol .rightParen ∈ afterExpr := rfl
      refine .inr ⟨by rw [hkind]; nofun, .less (n := n) ?_ (Nat.sub_le n 1)⟩
      exact (hg.guides_expression 0 (Set.mem_univ _)).bind fun inner =>
        (guides_symbol hclosing).bind fun _ => .pure subset_rfl
    next => exact .inl ⟨_, rfl⟩
  · rw [hkind]
    exact .pure subset_rfl

theorem guides_createRest (hg : g.Guided n) (start : Text.Span) (hK : .ident ∈ K) :
    Guides n J K (fun _ => Set.univ) (createRest g start) := by
  have hopening : .symbol .leftParen ∈ ({.symbol .dot}ᶜ : Set Kind) := nofun
  have hclosing : .symbol .rightParen ∈ afterSequence := ⟨rfl, nofun⟩
  rw [createRest, classExpr]
  simp only [bind_assoc]
  refine (guides_classHead hg hK).bind fun head => ?_
  rw [← bind_assoc]
  exact (guides_classPath head).bind fun type => (guides_symbol hopening).bind fun _ =>
    (guides_delimited hg hclosing).bind fun _ => .pure subset_rfl

theorem opens_operand (g : Grammar) (hK : .ident ∈ K) :
    Opens K (fun _ => afterExpr) (operand g) := by
  refine .next Token.Kind.writable_ident hK fun token hkind => ?_
  dsimp only
  rw [hkind]
  exact .pure (Set.subset_univ _)

theorem guides_operand (hg : g.Guided n) (hK : .ident ∈ K) :
    Guides (n + 1) J K (fun _ => afterExpr) (operand g) := by
  have hany {p : Parser Expr} (h : Guides n Set.univ Set.univ (fun _ => Set.univ) p) :
      Guides n Set.univ Set.univ (fun _ => afterExpr) p :=
    h.mono subset_rfl subset_rfl fun _ => Set.subset_univ _
  have hatom (e : Expr) : Guides n Set.univ Set.univ (fun _ => afterExpr) (pure e) :=
    .pure (Set.subset_univ _)
  have hparen : .symbol .rightParen ∈ afterSequence := ⟨rfl, nofun⟩
  have hbracket : .symbol .rightBracket ∈ afterSequence := ⟨rfl, nofun⟩
  refine ⟨.next fun token => ?_, opens_operand g hK⟩
  dsimp only
  split
  next h => exact .inr ⟨by rw [h]; nofun, hatom _⟩
  next h => exact .inr ⟨by rw [h]; nofun, hatom _⟩
  next h => exact .inr ⟨by rw [h]; nofun, hatom _⟩
  next h => exact .inr ⟨by rw [h]; nofun, hatom _⟩
  next h => exact .inr ⟨by rw [h]; nofun, hatom _⟩
  next h => exact .inr ⟨by rw [h]; nofun, hatom _⟩
  next h => exact .inr ⟨by rw [h]; nofun, hatom _⟩
  next h =>
    refine .inr ⟨by rw [h]; nofun, ?_⟩
    exact (guides_innerSequence hg (Set.mem_univ _)).bind fun _ =>
      (guides_symbol hparen).bind fun _ => hatom _
  next h =>
    refine .inr ⟨by rw [h]; nofun, ?_⟩
    exact (guides_delimited hg hbracket).bind fun _ => hatom _
  next h => exact .inr ⟨by rw [h]; nofun, hany (guides_dictLiteral hg _)⟩
  next h => exact .inr ⟨by rw [h]; nofun, hany (guides_functionLiteral hg _ (Set.mem_univ _))⟩
  next h => exact .inr ⟨by rw [h]; nofun, hany (guides_createRest hg _ (Set.mem_univ _))⟩
  next =>
    split
    next op hop =>
      have hne : token.kind ≠ .eof := fun heof => by
        rw [heof] at hop
        cases hop
      refine .inr ⟨hne, ?_⟩
      exact (hg.guides_expression _ (Set.mem_univ _)).bind fun _ => .pure subset_rfl
    next => exact .inl ⟨_, rfl⟩

/-! ### Operators -/

theorem guides_suffixRest (hg : g.Guided n) (suffix : Suffix) (object : Expr) :
    Guides n Set.univ Set.univ (fun _ => Set.univ) (suffixRest g suffix object) := by
  have hparen : .symbol .rightParen ∈ afterSequence := ⟨rfl, nofun⟩
  have hbracket : .symbol .rightBracket ∈ afterExpr := rfl
  cases suffix with
  | call => exact (guides_delimited hg hparen).bind fun _ => .pure subset_rfl
  | subscript =>
    exact (hg.guides_expression 0 (Set.mem_univ _)).bind fun _ =>
      (guides_symbol hbracket).bind fun _ => .pure subset_rfl
  | dot => exact guides_attributeRest object (Set.mem_univ _)

/-- Where an operator can be read, so can what comes after it, unless there is nothing to assign
to. -/
theorem guides_rest (hg : g.Guided n) {lhs : Expr} {token : Token} {power : Nat}
    {rest : Parser Expr} (h : extension? g lhs token = some (power, rest)) :
    Guides n Set.univ Set.univ (fun _ => afterExpr) rest ∨
      rest = fail .invalidAssignmentTarget token.span := by
  obtain ⟨suffix, -, -, rfl⟩ | ⟨op, -, -, rfl⟩ | ⟨op, -, -, rfl⟩ | ⟨op, -, -, rfl⟩ :=
    extension?_cases h
  · exact .inl ((guides_suffixRest hg suffix lhs).mono subset_rfl subset_rfl
      fun _ => Set.subset_univ _)
  · exact .inl ((hg.guides_expression _ (Set.mem_univ _)).bind fun _ => .pure subset_rfl)
  · exact .inl ((hg.guides_expression _ (Set.mem_univ _)).bind fun _ => .pure subset_rfl)
  · split
    next => exact .inr rfl
    next =>
      exact .inl ((hg.guides_expression _ (Set.mem_univ _)).bind fun _ => .pure subset_rfl)

/-- Before these tokens, there is no operator. -/
theorem extension?_after (g : Grammar) (lhs : Expr) {token : Token}
    (h : token.kind ∈ afterExpr) : extension? g lhs token = none :=
  Option.map_eq_none_iff.mp ((map_extension? g lhs token).trans h)

theorem viable_operatorPass (hg : g.Guided n) (least : Nat) (lhs : Expr) (hJ : afterExpr ⊆ J) :
    Viable n J (Pass.follow afterExpr fun _ => afterExpr) (operatorPass g least lhs) := by
  intro i hi hn
  obtain ⟨t, ht⟩ := hi.exists_next
  refine .peek ht ?_
  cases hsome : extension? g lhs t with
  | none =>
    refine .pure fun k hk => ⟨hJ hk, fun u hu => ?_⟩
    rw [extension?_after g lhs (hu ▸ hk)]
  | some entry =>
    obtain ⟨power, rest⟩ := entry
    dsimp only
    split
    next =>
      refine .pure fun k hk => ⟨hJ hk, fun u hu => ?_⟩
      rw [extension?_after g lhs (hu ▸ hk)]
    next =>
      have hne : t.kind ≠ .eof := fun heof => by
        rw [extension?_eof g lhs heof] at hsome
        cases hsome
      rcases guides_rest hg hsome with hrest | rfl
      · refine .token hi ht hne hn (.less (n := n) ?_ (Nat.sub_le n 1))
        exact hrest.bind fun lhs => .pure subset_rfl
      · exact .fails hi.ended ht rfl

theorem opens_expressionFrom (hg : g.Sober) (least : Nat) (lhs : Expr) (hK : afterExpr ⊆ K) :
    Opens K (fun _ => afterExpr) (expressionFrom g least lhs) := by
  refine (loops_extend hg.sound least).opens ?_
  simp only [operatorPass, bind_assoc]
  refine .peek (C := afterExpr) (q := pure lhs) (.pure fun k hk => ⟨hK hk, hk⟩) fun t ht => ?_
  rw [extension?_after g lhs ht]
  rfl

theorem guides_expressionFrom (hg : g.Guided n) (least : Nat) (lhs : Expr)
    (hK : afterExpr ⊆ K) : Guides n K K (fun _ => afterExpr) (expressionFrom g least lhs) :=
  ⟨(loops_extend hg.sober.sound least).viable subset_rfl
    (fun lhs => opens_expressionFrom hg.sober least lhs subset_rfl)
    (fun lhs _ hJ => viable_operatorPass hg least lhs hJ) lhs hK,
    opens_expressionFrom hg.sober least lhs hK⟩

theorem opens_expressionRule (hg : g.Sober) (least : Nat) (hK : .ident ∈ K) :
    Opens K (fun _ => afterExpr) (expressionRule g least) :=
  (opens_operand g hK).bind fun lhs => opens_expressionFrom hg least lhs subset_rfl

theorem guides_expressionRule (hg : g.Guided n) (least : Nat) (hK : .ident ∈ K) :
    Guides (n + 1) J K (fun _ => afterExpr) (expressionRule g least) :=
  (guides_operand hg hK).step (fun _ => ⟨.eof, rfl⟩) fun lhs =>
    guides_expressionFrom hg least lhs subset_rfl

end Grammar
end Syntax
end Rill
