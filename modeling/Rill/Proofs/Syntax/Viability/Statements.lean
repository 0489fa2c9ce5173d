import Rill.Proofs.Syntax.Viability.Expressions

/-! Readers of statements decide on the next token alone, and so does the grammar as a whole. -/
namespace Rill

/-- What ends a statement without the semicolon after it. -/
def Token.Kind.afterBare : Set Kind := {.symbol .semicolon, .symbol .rightBrace, .eof}

namespace Syntax

open Token (Kind)
open Token.Kind (afterExpr afterSequence afterBare afterStmt)
open Rill.Syntax.Parser

theorem afterBare_subset : afterBare ⊆ afterSequence := by
  rintro _ (rfl | rfl | rfl) <;> exact ⟨rfl, nofun⟩

theorem afterBare_subset_ne_else : afterBare ⊆ {.keyword .elseWord}ᶜ := by
  rintro _ (rfl | rfl | rfl) <;> nofun

theorem afterStmt_subset : afterStmt ⊆ afterBare \ {.symbol .semicolon} := by
  rintro _ (rfl | rfl)
  · exact ⟨.inr (.inl rfl), by rintro ⟨⟩⟩
  · exact ⟨.inr (.inr rfl), by rintro ⟨⟩⟩

/-- What may follow a statement anywhere may follow it in a body. -/
theorem Parser.Guides.bare {n : Nat} {J K : Set Kind} {H : Stmt → Set Kind} {p : Parser Stmt}
    (h : Guides n J K H p) (hH : ∀ s, afterBare ⊆ H s) : Guides n J K (fun _ => afterBare) p :=
  h.mono subset_rfl subset_rfl hH

namespace Grammar

variable {g : Grammar} {n : Nat} {J K : Set Kind}

/-- The first word of a rule. -/
theorem guides_opening {k : Keyword} {f : Token → Parser Stmt} {H : Stmt → Set Kind}
    (hK : .keyword k ∈ K) (hf : ∀ t, Guides n Set.univ Set.univ H (f t)) :
    Guides (n + 1) J K H (keyword k >>= f) :=
  (guides_keyword hK).step (fun _ => ⟨.eof, trivial⟩) hf

theorem guides_sequenceUnless (hg : g.Guided n) {terminator : Symbol}
    (h : .symbol terminator ∈ afterSequence) :
    Guides n Set.univ Set.univ (fun _ => {.symbol terminator}) (sequenceUnless g terminator) := by
  refine ⟨.check (fun i t _ _ _ _ => .pure fun k hk => ⟨trivial, hk⟩) ?_,
    .check_true (.pure fun k hk => ⟨trivial, hk⟩)⟩
  refine (guides_innerSequence hg (Set.mem_univ _)).viable.bind fun _ => .pure ?_
  rintro _ rfl
  exact h

theorem guides_includeRule (hK : .keyword .includeWord ∈ K) :
    Guides n J K (fun _ => Set.univ) includeRule :=
  (guides_keyword hK).bind fun _ =>
    (guides_expect (k := .string) nofun Token.Kind.writable_string (Set.mem_univ _)).bind
      fun _ => .pure subset_rfl

theorem guides_returnRule (hg : g.Guided n) (hK : .keyword .returnWord ∈ K) :
    Guides (n + 1) J K (fun _ => afterBare) (returnRule g) := by
  refine guides_opening hK fun start => .peek (C := afterBare)
    (q := pure (.returnValue none start.span)) (fun t ht => ?_) (.pure fun k hk => ⟨trivial, hk⟩)
    fun t ht => ?_
  · rcases ht with h | h | h <;> rw [h]
  · split
    next h => exact absurd (.inr (.inl h)) ht
    next h => exact absurd (.inl h) ht
    next h => exact absurd (.inr (.inr h)) ht
    next =>
      exact (guides_innerSequence hg (Set.mem_univ _)).viable.bind fun value =>
        .pure afterBare_subset

theorem guides_conditionalRule (hg : g.Guided n) (hK : .keyword .ifWord ∈ K) :
    Guides (n + 1) J K (fun _ => {.keyword .elseWord}ᶜ) (conditionalRule g) := by
  have hblock : .symbol .leftBrace ∈ afterExpr := rfl
  have hother : .symbol .leftBrace ∈ (Set.univ \ {.keyword .ifWord} : Set Kind) := ⟨trivial, nofun⟩
  refine guides_opening hK fun start =>
    (hg.guides_expression 0 (Set.mem_univ _)).bind fun condition =>
      (guides_block hg hblock).bind fun _ => ?_
  refine .eat?_none nofun (fun _ => ⟨.check (fun i t hi hn ht hkind => ?_) ?_, ?_⟩)
    (.pure fun k hk => ⟨trivial, hk⟩)
  · refine ((hg.viable_conditional hi hn ht hkind).mono (Set.empty_subset _)
      fun _ => subset_rfl).bind (fun _ => .pure subset_rfl) fun _ _ _ _ _ _ => .pure subset_rfl
  · exact (guides_block hg hother).viable.bind fun _ => .pure (Set.subset_univ _)
  · exact .check_false ((guides_block (J := ∅) hg hother).opens.bind fun _ =>
      .pure (Set.subset_univ _))

theorem guides_whileRule (hg : g.Guided n) (hK : .keyword .whileWord ∈ K) :
    Guides (n + 1) J K (fun _ => Set.univ) (whileRule g) := by
  have hblock : .symbol .leftBrace ∈ afterExpr := rfl
  exact guides_opening hK fun _ =>
    (hg.guides_expression 0 (Set.mem_univ _)).bind fun condition =>
      (guides_block hg hblock).bind fun _ => .pure subset_rfl

theorem guides_doWhileRule (hg : g.Guided n) (hK : .keyword .doWord ∈ K) :
    Guides (n + 1) J K (fun _ => afterExpr) (doWhileRule g) :=
  guides_opening hK fun _ =>
    (guides_block hg (Set.mem_univ _)).bind fun _ =>
      (guides_keyword (Set.mem_univ _)).bind fun _ =>
        (hg.guides_expression 0 (Set.mem_univ _)).bind fun _ => .pure subset_rfl

theorem guides_forRule (hg : g.Guided n) (hK : .keyword .forWord ∈ K) :
    Guides (n + 1) J K (fun _ => Set.univ) (forRule g) := by
  have hparen : .symbol .rightParen ∈ afterSequence := ⟨rfl, nofun⟩
  have hblock : .symbol .leftBrace ∈ afterExpr := rfl
  have hsequence : Guides n Set.univ Set.univ (fun _ => {.symbol .semicolon})
      (sequenceUnless g .semicolon) := guides_sequenceUnless hg ⟨rfl, nofun⟩
  have hsemicolon : Guides n {.symbol .semicolon} {.symbol .semicolon} (fun _ => Set.univ)
      (symbol .semicolon) := guides_symbol (Set.mem_singleton _)
  refine guides_opening hK fun _ => .skip_true (Set.mem_univ _) ?_ ?_
  · refine hsequence.bind fun initializer => hsemicolon.bind fun _ => hsequence.bind fun _ =>
      hsemicolon.bind fun _ => (guides_sequenceUnless hg hparen).bind fun _ =>
        (guides_symbol (Set.mem_singleton _)).bind fun _ =>
          (guides_block hg (Set.mem_univ _)).bind fun _ => ?_
    cases initializer <;> exact .pure subset_rfl
  · exact (guides_ident (Set.mem_univ _)).viable.bind fun _ =>
      (guides_keyword (Set.mem_univ _)).bind fun _ =>
        (hg.guides_expression 0 (Set.mem_univ _)).bind fun _ =>
          (guides_block hg hblock).bind fun _ => .pure subset_rfl

theorem guides_moduleRule (hg : g.Guided n) (hK : .keyword .moduleWord ∈ K) :
    Guides (n + 1) J K (fun _ => Set.univ) (moduleRule g) :=
  guides_opening hK fun _ =>
    (guides_ident (Set.mem_univ _)).bind fun _ =>
      (guides_block hg (Set.mem_univ _)).bind fun _ => .pure subset_rfl

theorem guides_superclass? (hg : g.Guided n) :
    Guides n Set.univ Set.univ (fun _ => {.symbol .leftParen}ᶜ) (superclass? g) := by
  have hparen : .symbol .rightParen ∈ afterExpr := rfl
  refine .skip_false ?_ (.pure fun k hk => ⟨trivial, hk⟩)
  exact (hg.guides_expression 0 (Set.mem_univ _)).bind fun superclass =>
    (guides_symbol hparen).bind fun _ => .pure (Set.subset_univ _)

theorem guides_classRule (hg : g.Guided n) (hK : .keyword .classWord ∈ K) :
    Guides (n + 1) J K (fun _ => Set.univ) (classRule g) := by
  have hblock : .symbol .leftBrace ∈ ({.symbol .leftParen}ᶜ : Set Kind) := nofun
  exact guides_opening hK fun start =>
    (guides_ident (Set.mem_univ _)).bind fun name => (guides_superclass? hg).bind fun superclass =>
      (guides_block hg hblock).bind fun _ => .pure subset_rfl

theorem guides_functionRule (hg : g.Guided n) (hK : .keyword .funWord ∈ K) :
    Guides (n + 1) J K (fun _ => afterSequence) (functionRule g) := by
  refine guides_opening hK fun start => ?_
  have hliteral : Viable n (Set.univ ∩ {.symbol .leftParen}) (fun _ => afterSequence) (do
      let lhs ← functionLiteral g start.span
      let first ← expressionFrom g 0 lhs
      return Stmt.expr (← sequenceRest g first)) :=
    (guides_functionLiteral hg _ (Set.mem_univ _)).viable.bind fun lhs =>
      (guides_expressionFrom hg 0 lhs (Set.subset_univ _)).bind fun first =>
        (guides_sequenceRest hg first afterSequence_subset).bind fun _ => .pure subset_rfl
  have hname : .ident ∈ (Set.univ \ {.symbol .leftParen} : Set Kind) := ⟨trivial, nofun⟩
  have hdecl : Guides n (Set.univ \ {.symbol .leftParen}) (Set.univ \ {.symbol .leftParen})
      (fun _ => afterSequence) (do
        let name ← ident
        return Stmt.functionDecl (← functionRest g name start.span)) :=
    (guides_ident hname).bind fun name =>
      (guides_functionRest hg name _ (Set.mem_univ _)).bind fun _ => .pure (Set.subset_univ _)
  exact ⟨.check (fun i t hi hn _ _ => hliteral i hi hn) hdecl.viable, .check_false hdecl.opens⟩

theorem guides_exprStmt (hg : g.Guided n) (hK : .ident ∈ K) :
    Guides (n + 1) J K (fun _ => afterBare) (do return Stmt.expr (← sequenceRule g)) := by
  have hsequence : Guides (n + 1) J K (fun _ => afterSequence) (sequenceRule g) :=
    (guides_expressionRule hg 0 hK).step (fun _ => ⟨.eof, rfl⟩) fun first =>
      guides_sequenceRest hg first afterSequence_subset
  exact hsequence.bind fun e => .pure afterBare_subset

theorem opens_bareStatement (hg : g.Sober) (hK : .ident ∈ K) :
    Opens K (fun _ => afterBare) (bareStatement g) := by
  refine .peek (C := {.ident}) (q := do return Stmt.expr (← sequenceRule g)) ?_ fun t ht => ?_
  · have hident : .ident ∈ K ∩ {.ident} := ⟨hK, rfl⟩
    refine .bind (H := fun _ => afterSequence) ?_ fun e => .pure afterBare_subset
    exact (opens_expressionRule hg 0 hident).bind fun first =>
      opens_sequenceRest hg first afterSequence_subset
  · have hkind : t.kind = .ident := ht
    rw [hkind]

theorem guides_bareStatement (hg : g.Guided n) (hK : .ident ∈ K) :
    Guides (n + 1) J K (fun _ => afterBare) (bareStatement g) := by
  refine ⟨fun i hi hn => ?_, opens_bareStatement hg.sober hK⟩
  obtain ⟨t, ht⟩ := hi.exists_next
  refine .peek ht ?_
  split
  next =>
    exact ((guides_includeRule (Set.mem_univ _)).bare fun _ => Set.subset_univ _).viable i hi hn
  next => exact (guides_returnRule hg (Set.mem_univ _)).viable i hi hn
  next =>
    exact ((guides_conditionalRule hg (Set.mem_univ _)).bare
      fun _ => afterBare_subset_ne_else).viable i hi hn
  next =>
    exact ((guides_whileRule hg (Set.mem_univ _)).bare fun _ => Set.subset_univ _).viable i hi hn
  next =>
    exact ((guides_doWhileRule hg (Set.mem_univ _)).bare
      fun _ => afterBare_subset.trans afterSequence_subset).viable i hi hn
  next =>
    exact ((guides_forRule hg (Set.mem_univ _)).bare fun _ => Set.subset_univ _).viable i hi hn
  next h => exact .token hi ht (by rw [h]; nofun) hn (.pure (Set.subset_univ _))
  next h => exact .token hi ht (by rw [h]; nofun) hn (.pure (Set.subset_univ _))
  next =>
    exact ((guides_moduleRule hg (Set.mem_univ _)).bare fun _ => Set.subset_univ _).viable i hi hn
  next =>
    exact ((guides_classRule hg (Set.mem_univ _)).bare fun _ => Set.subset_univ _).viable i hi hn
  next =>
    exact ((guides_functionRule hg (Set.mem_univ _)).bare fun _ => afterBare_subset).viable i hi hn
  next => exact (guides_exprStmt hg (Set.mem_univ _)).viable i hi hn

theorem opens_statementRule (hg : g.Sober) (hK : .ident ∈ K) :
    Opens K (fun _ => afterStmt) (statementRule g) :=
  (opens_bareStatement hg hK).bind fun _ => .skip_false (.pure afterStmt_subset)

theorem guides_statementRule (hg : g.Guided n) (hK : .ident ∈ K) :
    Guides (n + 1) J K (fun _ => afterStmt) (statementRule g) :=
  ⟨(guides_bareStatement hg hK).viable.bind fun _ =>
    .skip_false (.pure (Set.subset_univ _)) (.pure afterStmt_subset),
    opens_statementRule hg.sober hK⟩

/-! ### Any depth -/

/-- Where there is a keyword, something is left. -/
theorem rest_ne_nil {i : Input} {t : Token} {k : Keyword} (hi : i.Ended) (ht : i.Next t)
    (hk : t.kind = .keyword k) : i.rest ≠ [] := by
  rcases ht with ⟨-, rfl⟩ | ⟨rest, hrest⟩
  · exact absurd (hk.symm.trans hi) nofun
  · rw [hrest]
    exact List.cons_ne_nil _ _

theorem open_unbounded : unbounded.Open := by
  have hexpression (least : Nat) {K : Set Kind} (hK : .ident ∈ K) :
      Opens K (fun _ => afterExpr) (unbounded.expression least) :=
    (opens_expressionRule sober_unbounded least hK).congr fun i t hi _ _ =>
      unbounded_expression least hi
  refine ⟨sober_unbounded, hexpression, fun hK => ?_⟩
  exact (opens_statementRule sober_unbounded hK).congr fun i t hi _ _ => unbounded_statement hi

theorem guided_unbounded (n : Nat) : unbounded.Guided n := by
  induction n with
  | zero =>
    exact ⟨open_unbounded, fun _ _ _ hn => absurd hn (Nat.not_lt_zero _),
      fun _ _ hn => absurd hn (Nat.not_lt_zero _), fun _ hn => absurd hn (Nat.not_lt_zero _)⟩
  | succ n ih =>
    refine ⟨open_unbounded, fun least => ?_, ?_, fun {i t} hi hn ht hkind => ?_⟩
    · exact (guides_expressionRule ih least (Set.mem_univ _)).viable.congr fun i hi =>
        unbounded_expression least hi
    · exact (guides_statementRule ih (Set.mem_univ _)).viable.congr fun i hi =>
        unbounded_statement hi
    · refine ((guides_conditionalRule ih (Set.mem_univ _)).viable i hi hn).congr_next
        (fun _ => ⟨.eof, nofun⟩) hi.ended ht fun l hl hlt => ?_
      exact unbounded_conditional hl (rest_ne_nil hl hlt hkind)

end Grammar

namespace Parser

open Grammar (unbounded open_unbounded guided_unbounded guides_skipSemicolons opens_skipSemicolons)

variable {n : Nat} {J K : Set Kind}

theorem opens_statements (body : List Stmt) (hK : .eof ∈ K) :
    Opens K (fun _ => {.eof}) (do statements (← remaining) body) := by
  refine loops_statements.opens ?_
  simp only [statementPass, bind_assoc]
  rw [← bind_assoc]
  have hskip := opens_skipSemicolons (Set.singleton_subset_iff.mpr hK)
    (Token.Kind.symbol_ne_eof .semicolon)
  refine hskip.bind fun _ => ?_
  exact .check_true (.pure fun k hk => ⟨hk, hk⟩)

theorem guides_program : Guides n Set.univ Set.univ (fun _ => {.eof}) program := by
  rw [program, ← bind_assoc]
  have hsub : {.eof} ⊆ afterStmt := Set.singleton_subset_iff.mpr (.inr rfl)
  refine .bind ⟨loops_statements.viable hsub (fun body => opens_statements body (.inr rfl))
    (fun body J hJ => ?_) [] (Set.subset_univ _), opens_statements [] (Set.mem_univ _)⟩
    fun _ => .pure subset_rfl
  rw [statementPass, ← bind_assoc]
  have hskip := guides_skipSemicolons (n := n) hJ (Token.Kind.symbol_ne_eof .semicolon)
  refine hskip.viable.bind fun _ => ⟨.check ?_ ?_, ?_⟩
  · exact fun i t _ _ _ _ => .pure fun k hk => ⟨hk, hk⟩
  · exact ((guided_unbounded n).guides_statement (Set.mem_univ _)).viable.bind fun s =>
      .pure subset_rfl
  · exact .check_true (.pure fun k hk => ⟨hk, hk⟩)

end Parser
end Syntax
end Rill
