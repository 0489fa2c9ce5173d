import Rill.Proofs.Syntax.Precedence

/-! Whatever is read is spelled by the words read, with its operators in order. -/
namespace Rill.Syntax

open Token (Word Kind)
open Rill.Syntax.Parser

namespace Grammar

variable {g : Grammar} {i : Input}

/-- A statement without the semicolon after it. -/
abbrev FindsStmt (i : Input) (p : Parser Stmt) : Prop :=
  Finds i p fun s ws _ => s.Spelled 0 ws ∧ s.Ordered

theorem finds_sequenceUnless (hg : g.Sound) (terminator : Symbol) :
    Finds i (sequenceUnless g terminator) fun e ws _ =>
      OptionSpelled 0 e ws ∧ OptionOrdered e := by
  refine .bind (finds_check _) fun found _ j _ h => ?_
  obtain ⟨rfl, rfl⟩ := h
  cases found with
  | true => exact .pure ⟨.none, trivial⟩
  | false =>
    refine .bind (finds_innerSequence hg) fun e ws _ _ h => .pure ?_
    exact ⟨.some (by simpa using h.1), h.2⟩

theorem finds_includeRule : FindsStmt i includeRule := by
  refine .bind (finds_keyword .includeWord) fun start _ _ _ h => ?_
  subst h
  refine .bind (finds_expect nofun) fun path _ _ _ h => .pure ?_
  subst h
  exact ⟨.includeFile, trivial⟩

theorem finds_returnRule (hg : g.Sound) : FindsStmt i (returnRule g) := by
  refine .bind (finds_keyword .returnWord) fun start _ j _ h => ?_
  subst h
  refine .bind finds_peek fun t _ _ _ h => ?_
  obtain ⟨-, rfl, rfl⟩ := h
  split
  next => exact .pure ⟨.returnNone, trivial⟩
  next => exact .pure ⟨.returnNone, trivial⟩
  next => exact .pure ⟨.returnNone, trivial⟩
  next =>
    refine .bind (finds_innerSequence hg) fun e ws _ _ h => .pure ?_
    exact ⟨by simpa using .returnSome h.1, h.2⟩

theorem finds_conditionalRule (hg : g.Sound) : Finds i (conditionalRule g) fun s ws _ =>
    s.Spelled 0 ws ∧ s.Ordered ∧
      ∃ e success failure span, s = .ifElse e success failure span := by
  refine .bind (finds_keyword .ifWord) fun start _ j _ h => ?_
  subst h
  refine .bind (hg.inner j) fun e us _ _ he => .bind (finds_block hg) fun success vs _ _ hs => ?_
  refine .bind (finds_eat? nofun) fun found _ j _ h => ?_
  cases found with
  | none =>
    obtain ⟨rfl, rfl⟩ := h
    refine .pure ⟨?_, ⟨he.2, hs.2, trivial⟩, _, _, _, _, rfl⟩
    simpa using .ifOnly he.1 hs.1
  | some other =>
    subst h
    refine .bind (finds_check _) fun nested _ j _ h => ?_
    obtain ⟨rfl, rfl⟩ := h
    cases nested with
    | true =>
      refine .bind (hg.conditional j) fun s ws _ _ h => .pure ?_
      obtain ⟨hspelled, hord, e', success', failure', span', rfl⟩ := h
      refine ⟨?_, ⟨he.2, hs.2, hord, trivial⟩, _, _, _, _, rfl⟩
      simpa using Stmt.Spelled.elseIf (t := start.text) (u := other.text) he.1 hs.1 hspelled
    | false =>
      refine .bind (finds_block hg) fun failure ws _ _ hf => .pure ?_
      refine ⟨?_, ⟨he.2, hs.2, hf.2⟩, _, _, _, _, rfl⟩
      simpa using Stmt.Spelled.ifElse (t := start.text) (u := other.text) he.1 hs.1 hf.1

theorem finds_whileRule (hg : g.Sound) : FindsStmt i (whileRule g) := by
  refine .bind (finds_keyword .whileWord) fun start _ j _ h => ?_
  subst h
  refine .bind (hg.inner j) fun e us _ _ he => .bind (finds_block hg) fun body vs _ _ hb => .pure ?_
  exact ⟨by simpa using .whileLoop he.1 hb.1, he.2, hb.2, trivial⟩

theorem finds_doWhileRule (hg : g.Sound) : FindsStmt i (doWhileRule g) := by
  refine .bind (finds_keyword .doWord) fun start _ _ _ h => ?_
  subst h
  refine .bind (finds_block hg) fun body us _ _ hb => ?_
  refine .bind (finds_keyword .whileWord) fun _ _ j _ h => ?_
  subst h
  refine .bind (hg.inner j) fun e vs _ _ he => .pure ?_
  exact ⟨by simpa using .doWhile hb.1 he.1, he.2, hb.2, trivial⟩

theorem finds_forRule (hg : g.Sound) : FindsStmt i (forRule g) := by
  refine .bind (finds_keyword .forWord) fun start _ _ _ h => ?_
  subst h
  refine .bind (finds_skip .leftParen) fun found _ j _ h => ?_
  cases found with
  | true =>
    obtain ⟨t₁, rfl⟩ := h
    refine .bind (finds_sequenceUnless hg _) fun i us _ _ hi => ?_
    refine .bind (finds_symbol .semicolon) fun t₂ _ _ _ h => ?_
    subst h
    refine .bind (finds_sequenceUnless hg _) fun c vs _ _ hc => ?_
    refine .bind (finds_symbol .semicolon) fun t₃ _ _ _ h => ?_
    subst h
    refine .bind (finds_sequenceUnless hg _) fun p ws _ _ hp => ?_
    refine .bind (finds_symbol .rightParen) fun t₄ _ _ _ h => ?_
    subst h
    refine .bind (finds_block hg) fun body xs _ _ hb => ?_
    let span := start.span.merge body.2
    have hspelled : Stmt.Spelled 0 (.block (initial i ++ [.loop c body.1 p false span]) span)
        (⟨.keyword .forWord, start.text⟩ :: ⟨.symbol .leftParen, t₁⟩ :: us ++
          ⟨.symbol .semicolon, t₂.text⟩ :: vs ++ ⟨.symbol .semicolon, t₃.text⟩ :: ws ++
            ⟨.symbol .rightParen, t₄.text⟩ :: xs) :=
      .forLoop hi.1 hc.1 hp.1 hb.1
    cases i with
    | some e => exact .pure ⟨by simpa [initial] using hspelled, hi.2, ⟨hc.2, hb.2, hp.2⟩, trivial⟩
    | none => exact .pure ⟨by simpa [initial] using hspelled, ⟨hc.2, hb.2, hp.2⟩, trivial⟩
  | false =>
    obtain ⟨rfl, rfl⟩ := h
    refine .bind finds_ident fun n _ _ _ h => ?_
    subst h
    refine .bind (finds_keyword .inWord) fun _ _ j _ h => ?_
    subst h
    refine .bind (hg.inner j) fun e us _ _ he => .bind (finds_block hg) fun body vs _ _ hb =>
      .pure ?_
    exact ⟨by simpa using .forEach he.1 hb.1, he.2, hb.2⟩

theorem finds_moduleRule (hg : g.Sound) : FindsStmt i (moduleRule g) := by
  refine .bind (finds_keyword .moduleWord) fun start _ _ _ h => ?_
  subst h
  refine .bind finds_ident fun n _ _ _ h => ?_
  subst h
  refine .bind (finds_block hg) fun body vs _ _ hb => .pure ?_
  exact ⟨by simpa using .moduleDecl hb.1, hb.2⟩

theorem finds_superclass? (hg : g.Sound) :
    Finds i (superclass? g) fun e ws _ => OptionOrdered e ∧
      match e with
      | some e => ∃ t u vs, ws = ⟨.symbol .leftParen, t⟩ :: vs ++ [⟨.symbol .rightParen, u⟩] ∧
          e.Spelled 0 vs
      | none => ws = [] := by
  refine .bind (finds_skip .leftParen) fun found _ j _ h => ?_
  cases found with
  | true =>
    obtain ⟨t, rfl⟩ := h
    refine .bind (hg.inner j) fun e vs _ _ he => .bind (finds_symbol .rightParen)
      fun u _ _ _ h => .pure ?_
    subst h
    exact ⟨he.2, t, u.text, vs, by simp, he.1⟩
  | false =>
    obtain ⟨rfl, rfl⟩ := h
    exact .pure ⟨trivial, rfl⟩

theorem finds_classRule (hg : g.Sound) : FindsStmt i (classRule g) := by
  refine .bind (finds_keyword .classWord) fun start _ _ _ h => ?_
  subst h
  refine .bind finds_ident fun n _ _ _ h => ?_
  subst h
  refine .bind (finds_superclass? hg) fun superclass _ _ _ h => ?_
  obtain ⟨hord, h⟩ := h
  refine .bind (finds_block hg) fun body ws _ _ hb => .pure ⟨?_, hord, hb.2⟩
  cases superclass with
  | none =>
    subst h
    simpa using .classDecl hb.1
  | some e =>
    obtain ⟨t, u, vs, rfl, he⟩ := h
    simpa using Stmt.Spelled.subclassDecl (t := start.text) (u := t) (v := u) he hb.1

theorem finds_sequenceRule (hg : g.Sound) :
    Finds i (sequenceRule g) fun e ws _ => SequenceSpelled 0 e ws ∧ e.Ordered :=
  .bind (finds_expressionRule hg 0) fun _ _ _ _ h =>
    finds_sequenceRest hg h.1.spelled h.1.ordered

/-- A statement that starts with a function literal, after the keyword of that. -/
def literalRule (g : Grammar) (start : Text.Span) : Parser Expr := do
  let lhs ← functionLiteral g start
  let first ← expressionFrom g 0 lhs
  sequenceRest g first

theorem functionRule_eq_literalRule (g : Grammar) : functionRule g = do
    let start ← keyword .funWord
    if ← check (.symbol .leftParen) then return .expr (← literalRule g start.span)
    else
      let name ← ident
      return .functionDecl (← functionRest g name start.span) := by
  simp only [functionRule, literalRule, bind_assoc]

theorem finds_literalRule (hg : g.Sound) (start : Text.Span) (text : String) :
    Finds i (literalRule g start) fun e ws _ =>
      SequenceSpelled 0 e (⟨.keyword .funWord, text⟩ :: ws) ∧ e.Ordered := by
  refine .bind (finds_functionLiteral hg _) fun e ws j _ h => ?_
  obtain ⟨d, rfl, hname, hd, hord⟩ := h
  have hl : Placed 0 (.function d) (⟨.keyword .funWord, text⟩ :: ws) j :=
    placed_of_tight (.function hname hd) hord rfl rfl
  refine .bind (finds_expressionFrom hg hl) fun first us _ _ h => ?_
  refine (finds_sequenceRest hg h.1.spelled h.1.ordered).weaken fun e vs _ _ h => ?_
  exact ⟨by simpa using h.1, h.2⟩

theorem finds_functionRule (hg : g.Sound) : FindsStmt i (functionRule g) := by
  rw [functionRule_eq_literalRule]
  refine .bind (finds_keyword .funWord) fun start _ _ _ h => ?_
  subst h
  refine .bind (finds_check _) fun found _ _ _ h => ?_
  obtain ⟨rfl, rfl⟩ := h
  cases found with
  | true =>
    refine .bind (finds_literalRule hg _ start.text) fun e ws _ _ h => .pure ?_
    exact ⟨.expr (by simpa using h.1), h.2⟩
  | false =>
    refine .bind finds_ident fun n _ _ _ h => ?_
    subst h
    refine .bind (finds_functionRest hg n _) fun d ws _ _ h => .pure ?_
    obtain ⟨rfl, hd, hord⟩ := h
    exact ⟨by simpa using .functionDecl hd, hord⟩

theorem finds_bareStatement (hg : g.Sound) : FindsStmt i (bareStatement g) := by
  refine .bind finds_peek fun token _ j _ h => ?_
  obtain ⟨hnext, rfl, rfl⟩ := h
  split
  next => exact finds_includeRule
  next => exact finds_returnRule hg
  next => exact (finds_conditionalRule hg).weaken fun _ _ _ _ h => ⟨h.1, h.2.1⟩
  next => exact finds_whileRule hg
  next => exact finds_doWhileRule hg
  next => exact finds_forRule hg
  next hk =>
    refine .bind (finds_peeked hnext (by simp [hk])) fun _ _ _ _ h => .pure ?_
    obtain ⟨rfl, rfl⟩ := h
    rw [Token.word, hk]
    exact ⟨.breakLoop, trivial⟩
  next hk =>
    refine .bind (finds_peeked hnext (by simp [hk])) fun _ _ _ _ h => .pure ?_
    obtain ⟨rfl, rfl⟩ := h
    rw [Token.word, hk]
    exact ⟨.continueLoop, trivial⟩
  next => exact finds_moduleRule hg
  next => exact finds_classRule hg
  next => exact finds_functionRule hg
  next =>
    refine .bind (finds_sequenceRule hg) fun e ws _ _ h => .pure ?_
    exact ⟨.expr (by simpa using h.1), h.2⟩

theorem finds_statementRule (hg : g.Sound) : Finds i (statementRule g) fun s ws _ =>
    ∃ us vs, ws = us ++ vs ∧ s.Spelled 0 us ∧ Semicolons 0 vs ∧ s.Ordered := by
  refine .bind (finds_bareStatement hg) fun s us _ _ hs => ?_
  refine .bind (finds_skip .semicolon) fun found vs _ _ h => .pure ?_
  refine ⟨us, vs, by simp, hs.1, ⟨Nat.zero_le _, ?_⟩, hs.2⟩
  cases found with
  | true =>
    obtain ⟨t, rfl⟩ := h
    simp
  | false =>
    obtain ⟨rfl, -⟩ := h
    simp

/-- The grammar of any depth is sound. -/
theorem sound_ofDepth (depth : Nat) : (ofDepth depth).Sound := by
  induction depth with
  | zero => exact sound_empty
  | succ depth ih =>
    exact ⟨fun least _ => finds_expressionRule ih least, fun _ => finds_statementRule ih,
      fun _ => finds_conditionalRule ih⟩

end Grammar

namespace Parser

theorem finds_expression {i : Input} :
    Finds i expression fun e ws _ => e.Spelled 0 ws ∧ e.Ordered := by
  refine .bind finds_remaining fun _ _ _ _ h => ?_
  obtain ⟨-, rfl, rfl⟩ := h
  exact (Grammar.sound_ofDepth _).inner _

theorem finds_sequence {i : Input} :
    Finds i sequence fun e ws _ => SequenceSpelled 0 e ws ∧ e.Ordered := by
  refine .bind finds_expression fun first us _ _ hfirst => ?_
  refine .bind finds_remaining fun _ _ _ _ h => ?_
  obtain ⟨-, rfl, rfl⟩ := h
  exact Grammar.finds_sequenceRest (Grammar.sound_ofDepth _) hfirst.1 hfirst.2

theorem finds_statement {i : Input} : Finds i statement fun s ws _ =>
    ∃ us vs, ws = us ++ vs ∧ s.Spelled 0 us ∧ Semicolons 0 vs ∧ s.Ordered := by
  refine .bind finds_remaining fun _ _ _ _ h => ?_
  obtain ⟨-, rfl, rfl⟩ := h
  exact (Grammar.sound_ofDepth _).statement _

theorem finds_statements {i : Input} (room : Nat) (body : List Stmt) :
    Finds i (statements room body) fun r ws _ => ∃ ss us vs, r = ss.reverse ++ body ∧
      ws = us ++ vs ∧ Semicolons 0 us ∧ BodySpelled 0 ss vs ∧ BodyOrdered ss := by
  induction room generalizing i body with
  | zero => exact .pure ⟨[], [], [], rfl, rfl, ⟨Nat.le_refl 0, nofun⟩, .nil, trivial⟩
  | succ room ih =>
    refine .bind finds_remaining fun _ _ _ _ h => ?_
    obtain ⟨-, rfl, rfl⟩ := h
    refine .bind (finds_skipSemicolons _) fun _ us _ _ hus => ?_
    refine .bind (finds_check .eof) fun atEnd _ _ _ h => ?_
    obtain ⟨rfl, rfl⟩ := h
    cases atEnd with
    | true => exact .pure ⟨[], us, [], rfl, by simp, hus, .nil, trivial⟩
    | false =>
      refine .bind finds_statement fun s _ _ _ hs => (ih (s :: body)).weaken ?_
      obtain ⟨xs, ys, rfl, hs, hys, hord⟩ := hs
      rintro _ _ _ _ ⟨ss, us', vs, rfl, rfl, hus', hss, hords⟩
      exact ⟨s :: ss, us, xs ++ (ys ++ us') ++ vs, by simp, by simp, hus,
        .cons hs (Grammar.semicolons_append hys hus') hss, hord, hords⟩

theorem finds_program {i : Input} :
    Finds i program fun p ws _ => Program.Spelled 0 p ws ∧ BodyOrdered p := by
  refine .bind finds_remaining fun _ _ _ _ h => ?_
  obtain ⟨-, rfl, rfl⟩ := h
  refine .bind (finds_statements _ []) fun r _ _ _ h => .pure ?_
  obtain ⟨ss, us, vs, rfl, rfl, hus, hss, hord⟩ := h
  exact ⟨⟨us, vs, hus, by simpa using hss, by simp⟩, by simpa using hord⟩

end Parser

end Rill.Syntax
