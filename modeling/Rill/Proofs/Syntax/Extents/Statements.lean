import Rill.Proofs.Syntax.Extents.Expressions

/-! Statements cover the tokens that they are read from. -/
namespace Rill.Syntax

open Rill.Syntax.Parser
open Rill.Syntax.Part (Rows exprs stmts)

theorem Part.Exact.spelled {x : Part} {ts : List Token} (h : x.Exact ts) :
    x.Spelled (ts.map Token.word) := by
  cases h with
  | whole _ hspelled _ _ => exact hspelled
  | pair hspelled _ _ => exact hspelled

/-- A statement that is an expression has the place of it. -/
theorem Part.Exact.toStmt {e : Expr} {ts : List Token} (h : (Part.expr e).Exact ts) :
    (Part.stmt (.expr e)).Exact ts :=
  .whole rfl (.expr h.spelled) h.extent (.one h)

namespace Grammar

variable {g : Grammar} {i : Input}

/-- The statement read covers the tokens read. -/
abbrev CoversStmt (i : Input) (p : Parser Stmt) : Prop :=
  Traces i p fun s ts _ =>
    InOrder ts → (Part.stmt s).isPair = false ∧ (Part.stmt s).Covers ts

/-- The tokens read are those of the statement read. -/
abbrev ExactStmt (i : Input) (p : Parser Stmt) : Prop :=
  Traces i p fun s ts _ => InOrder ts → (Part.stmt s).Exact ts

theorem CoversStmt.exact {p : Parser Stmt} (h : CoversStmt i p) (hp : FindsStmt i p) :
    ExactStmt i p :=
  (hp.traces.and h).weaken fun _ _ _ ⟨⟨hspelled, _⟩, hcovers⟩ horder =>
    have ⟨hpair, hextent, hrows⟩ := hcovers horder
    .whole hpair hspelled hextent hrows

theorem traces_sequenceUnless (hg : g.Exact) (terminator : Symbol) :
    Traces i (sequenceUnless g terminator) fun e ts _ => InOrder ts → Rows (exprs e.toList) ts := by
  refine .bind (traces_check _) fun found _ j _ h => ?_
  obtain ⟨rfl, rfl⟩ := h
  cases found with
  | true => exact .pure fun _ => .nil
  | false =>
    refine .bind (traces_innerSequence hg) fun e ts _ _ he => .pure fun horder => ?_
    rw [List.nil_append, List.append_nil] at horder ⊢
    exact .one (he horder)

theorem covers_includeRule : CoversStmt i includeRule := by
  refine .bind (traces_keyword .includeWord) fun start _ _ _ h => ?_
  subst h
  refine .bind (traces_expect nofun) fun path _ _ _ h => .pure fun horder => ?_
  subst h
  exact ⟨rfl, (Extent.token start).join (.token path) horder, .nil⟩

theorem covers_returnRule (hg : g.Exact) : CoversStmt i (returnRule g) := by
  refine .bind (traces_keyword .returnWord) fun start _ _ _ h => ?_
  subst h
  refine .bind traces_peek fun t _ _ _ h => ?_
  obtain ⟨-, rfl, rfl⟩ := h
  split
  next => exact .pure fun _ => ⟨rfl, .token start, .nil⟩
  next => exact .pure fun _ => ⟨rfl, .token start, .nil⟩
  next => exact .pure fun _ => ⟨rfl, .token start, .nil⟩
  next =>
    refine .bind (traces_innerSequence hg) fun e us _ _ he => .pure fun horder => ?_
    rw [List.nil_append, List.append_nil] at horder ⊢
    have hexact := he horder.right
    have hextent := (Extent.token start).join hexact.extent horder
    exact ⟨rfl, hextent, (Rows.one hexact).after [start]⟩

theorem covers_conditionalRule (hg : g.Exact) : CoversStmt i (conditionalRule g) := by
  refine .bind (traces_keyword .ifWord) fun start _ j _ h => ?_
  subst h
  refine .bind (hg.expression 0 j) fun e us _ _ he => .bind (traces_block hg)
    fun success vs _ _ hs => ?_
  -- whatever follows, this much has been read
  have hbefore (horder : InOrder ([start] ++ (us ++ vs))) :
      Extent ([start] ++ (us ++ vs)) (start.span.merge success.2) ∧
        Rows (.expr e :: stmts success.1) ([start] ++ (us ++ vs)) := by
    obtain ⟨hextent, hrows⟩ := hs horder.right.right
    have hcondition := Rows.one (he horder.right.left)
    exact ⟨(Extent.token start).merge hextent horder, (hcondition.append hrows).after [start]⟩
  refine .bind (traces_eat? nofun) fun found _ j _ h => ?_
  cases found with
  | none =>
    obtain ⟨rfl, rfl⟩ := h
    refine .pure fun horder => ?_
    rw [List.append_nil, List.append_nil] at horder ⊢
    obtain ⟨hextent, hrows⟩ := hbefore horder
    exact ⟨rfl, hextent, by simpa [Part.parts, stmts] using hrows⟩
  | some other =>
    subst h
    refine .bind (traces_check _) fun nested _ j _ h => ?_
    obtain ⟨rfl, rfl⟩ := h
    cases nested with
    | true =>
      refine .bind (hg.conditional j) fun s ws _ _ hs => .pure fun horder => ?_
      have hts : [start] ++ (us ++ (vs ++ ([other] ++ ([] ++ (ws ++ []))))) =
          ([start] ++ (us ++ vs)) ++ ([other] ++ ws) := by simp
      rw [hts] at horder ⊢
      obtain ⟨hextent, hrows⟩ := hbefore horder.left
      have hexact := hs horder.right.right
      exact ⟨rfl, hextent.merge hexact.extent horder,
        hrows.append ((Rows.one hexact).after [other])⟩
    | false =>
      refine .bind (traces_block hg) fun failure ws _ _ hf => .pure fun horder => ?_
      have hts : [start] ++ (us ++ (vs ++ ([other] ++ ([] ++ (ws ++ []))))) =
          ([start] ++ (us ++ vs)) ++ ([other] ++ ws) := by simp
      rw [hts] at horder ⊢
      obtain ⟨hextent, hrows⟩ := hbefore horder.left
      obtain ⟨hextent', hrows'⟩ := hf horder.right.right
      exact ⟨rfl, hextent.merge hextent' horder, hrows.append (hrows'.after [other])⟩

theorem covers_whileRule (hg : g.Exact) : CoversStmt i (whileRule g) := by
  refine .bind (traces_keyword .whileWord) fun start _ j _ h => ?_
  subst h
  refine .bind (hg.expression 0 j) fun e us _ _ he => .bind (traces_block hg)
    fun body vs _ _ hb => .pure fun horder => ?_
  rw [List.append_nil] at horder ⊢
  obtain ⟨hextent, hrows⟩ := hb horder.right.right
  have hcondition := Rows.one (he horder.right.left)
  exact ⟨rfl, (Extent.token start).merge hextent horder, (hcondition.append hrows).after [start]⟩

theorem covers_doWhileRule (hg : g.Exact) : CoversStmt i (doWhileRule g) := by
  refine .bind (traces_keyword .doWord) fun start _ _ _ h => ?_
  subst h
  refine .bind (traces_block hg) fun body us _ _ hb => ?_
  refine .bind (traces_keyword .whileWord) fun t _ j _ h => ?_
  subst h
  refine .bind (hg.expression 0 j) fun e vs _ _ he => .pure fun horder => ?_
  rw [List.append_nil, ← List.append_assoc us] at horder ⊢
  obtain ⟨-, hrows⟩ := hb horder.right.left.left
  have hexact := he horder.right.right
  have hbody := (hrows.before [t]).append (Rows.one hexact)
  exact ⟨rfl, (Extent.token start).merge hexact.extent horder, hbody.after [start]⟩

theorem covers_moduleRule (hg : g.Exact) : CoversStmt i (moduleRule g) := by
  refine .bind (traces_keyword .moduleWord) fun start _ _ _ h => ?_
  subst h
  refine .bind traces_ident fun n us _ _ _ => ?_
  refine .bind (traces_block hg) fun body vs _ _ hb => .pure fun horder => ?_
  rw [List.append_nil] at horder ⊢
  obtain ⟨hextent, hrows⟩ := hb horder.right.right
  exact ⟨rfl, (Extent.token start).merge hextent horder, (hrows.after us).after [start]⟩

theorem traces_superclass? (hg : g.Exact) : Traces i (superclass? g) fun e ts _ =>
    InOrder ts → Rows (exprs e.toList) ts := by
  refine .bind (traces_skip .leftParen) fun found _ j _ h => ?_
  cases found with
  | true =>
    obtain ⟨t, rfl⟩ := h
    refine .bind (hg.expression 0 j) fun e vs _ _ he => .bind (traces_symbol .rightParen)
      fun u _ _ _ h => .pure fun horder => ?_
    subst h
    exact ((Rows.one (he horder.right.left)).before _).after [t]
  | false =>
    obtain ⟨rfl, rfl⟩ := h
    exact .pure fun _ => .nil

theorem covers_classRule (hg : g.Exact) : CoversStmt i (classRule g) := by
  refine .bind (traces_keyword .classWord) fun start _ _ _ h => ?_
  subst h
  refine .bind traces_ident fun n us _ _ _ => ?_
  refine .bind (traces_superclass? hg) fun superclass vs _ _ hsuper => ?_
  refine .bind (traces_block hg) fun body ws _ _ hb => .pure fun horder => ?_
  rw [List.append_nil] at horder ⊢
  obtain ⟨hextent, hrows⟩ := hb horder.right.right.right
  have hparts := (hsuper horder.right.right.left).append hrows
  refine ⟨rfl, ?_, (hparts.after us).after [start]⟩
  rw [← List.append_assoc us] at horder ⊢
  exact (Extent.token start).merge hextent horder

/-- The initializer of a loop is a statement of its own. -/
theorem rows_initial {e : Option Expr} {us : List Token} (h : Rows (exprs e.toList) us) :
    Rows (stmts (initial e)) us := by
  cases e with
  | none => exact h
  | some e =>
    cases h with
    | cons hexact hnil => exact .cons hexact.toStmt hnil

/-- The head of a loop has three parts, each of which may be left out. -/
theorem covers_pair (start t₁ t₂ t₃ t₄ : Token) {us vs ws xs : List Token} {i c p : Option Expr}
    {body : List Stmt × Text.Span} (hi : InOrder us → Rows (exprs i.toList) us)
    (hc : InOrder vs → Rows (exprs c.toList) vs) (hp : InOrder ws → Rows (exprs p.toList) ws)
    (hb : InOrder xs → Extent xs body.2 ∧ Rows (stmts body.1) xs)
    (horder : InOrder ([start] ++ ([t₁] ++ us ++ ([t₂] ++ vs ++ ([t₃] ++ ws ++ ([t₄] ++ xs)))))) :
    Extent ([start] ++ ([t₁] ++ us ++ ([t₂] ++ vs ++ ([t₃] ++ ws ++ ([t₄] ++ xs)))))
        (start.span.merge body.2) ∧
      Rows (stmts (initial i) ++ (exprs c.toList ++ (exprs p.toList ++ stmts body.1)))
        ([start] ++ ([t₁] ++ us ++ ([t₂] ++ vs ++ ([t₃] ++ ws ++ ([t₄] ++ xs))))) := by
  have hhead := horder.right
  have hstep := hhead.right.right
  obtain ⟨hextent, hbody⟩ := hb hstep.right.right
  have hfirst := (rows_initial (hi hhead.left.right)).after [t₁]
  have hsecond := (hc hhead.right.left.right).after [t₂]
  have hthird := (hp hstep.left.right).after [t₃]
  refine ⟨?_, (hfirst.append (hsecond.append (hthird.append (hbody.after [t₄])))).after [start]⟩
  have hts : [start] ++ ([t₁] ++ us ++ ([t₂] ++ vs ++ ([t₃] ++ ws ++ ([t₄] ++ xs)))) =
      [start] ++ (([t₁] ++ us ++ ([t₂] ++ vs ++ ([t₃] ++ ws ++ [t₄]))) ++ xs) := by simp
  rw [hts] at horder ⊢
  exact (Extent.token start).merge hextent horder

theorem exact_forRule (hg : g.Exact) : ExactStmt i (forRule g) := by
  have hcovers : Traces i (forRule g) fun s ts _ => InOrder ts →
      ((Part.stmt s).isPair = false ∧ (Part.stmt s).Covers ts) ∨
      ∃ i c p body span, s = .block (initial i ++ [.loop c body p false span]) span ∧
        Extent ts span ∧
        Rows (stmts (initial i) ++ (Part.stmt (.loop c body p false span)).parts) ts := by
    refine .bind (traces_keyword .forWord) fun start _ _ _ h => ?_
    subst h
    refine .bind (traces_skip .leftParen) fun found _ j _ h => ?_
    cases found with
    | true =>
      obtain ⟨t₁, rfl⟩ := h
      refine .bind (traces_sequenceUnless hg _) fun i us _ _ hi => ?_
      refine .bind (traces_symbol .semicolon) fun t₂ _ _ _ h => ?_
      subst h
      refine .bind (traces_sequenceUnless hg _) fun c vs _ _ hc => ?_
      refine .bind (traces_symbol .semicolon) fun t₃ _ _ _ h => ?_
      subst h
      refine .bind (traces_sequenceUnless hg _) fun p ws _ _ hp => ?_
      refine .bind (traces_symbol .rightParen) fun t₄ _ _ _ h => ?_
      subst h
      refine .bind (traces_block hg) fun body xs _ _ hb => ?_
      have hts : [start] ++ ([t₁] ++ (us ++ ([t₂] ++ (vs ++ ([t₃] ++ (ws ++ ([t₄] ++
          (xs ++ [])))))))) =
            [start] ++ ([t₁] ++ us ++ ([t₂] ++ vs ++ ([t₃] ++ ws ++ ([t₄] ++ xs)))) := by simp
      have hpair := covers_pair start t₁ t₂ t₃ t₄ hi hc hp hb
      rw [← hts] at hpair
      cases i with
      | some e => exact .pure fun horder => .inr ⟨some e, c, p, body.1, _, rfl, hpair horder⟩
      | none => exact .pure fun horder => .inr ⟨none, c, p, body.1, _, rfl, hpair horder⟩
    | false =>
      obtain ⟨rfl, rfl⟩ := h
      refine .bind traces_ident fun n us _ _ _ => ?_
      refine .bind (traces_keyword .inWord) fun t _ j _ h => ?_
      subst h
      refine .bind (hg.expression 0 j) fun e vs _ _ he => .bind (traces_block hg)
        fun body ws _ _ hb => .pure fun horder => .inl ?_
      have hts : [start] ++ ([] ++ (us ++ ([t] ++ (vs ++ (ws ++ []))))) =
          [start] ++ ((us ++ [t] ++ vs) ++ ws) := by simp
      rw [hts] at horder ⊢
      obtain ⟨hextent, hrows⟩ := hb horder.right.right
      have hparts := ((Rows.one (he horder.right.left.right)).after (us ++ [t])).append hrows
      exact ⟨rfl, (Extent.token start).merge hextent horder, hparts.after [start]⟩
  refine ((finds_forRule hg.sound).traces.and hcovers).weaken ?_
  rintro s ts _ ⟨⟨hspelled, -⟩, hcovers⟩ horder
  rcases hcovers horder with ⟨hpair, hextent, hrows⟩ | ⟨i, c, p, body, span, rfl, hextent, hrows⟩
  · exact .whole hpair hspelled hextent hrows
  · exact .pair hspelled hextent hrows

theorem traces_sequenceRule (hg : g.Exact) :
    Traces i (sequenceRule g) fun e ts _ => InOrder ts → (Part.expr e).Exact ts := by
  refine .bind ((traces_expressionRule hg 0).and (finds_expressionRule hg.sound 0).traces)
    fun _ _ _ _ h => ?_
  obtain ⟨hexact, hplaced, -⟩ := h
  exact traces_sequenceRest hg hexact hplaced.spelled hplaced.ordered

/-- The expression covers the keyword of the literal as well. -/
theorem traces_literalRule (hg : g.Exact) {start : Token}
    (hstart : [start].map Token.word = [⟨.keyword .funWord, start.text⟩]) :
    Traces i (literalRule g start.span) fun e ts _ =>
      InOrder ([start] ++ ts) → (Part.expr e).Exact ([start] ++ ts) := by
  refine .bind ((traces_functionLiteral hg start).and (finds_functionLiteral hg.sound _).traces)
    fun e us j _ h => ?_
  obtain ⟨hcovers, d, rfl, hname, hd, hord⟩ := h
  have hspelled : Expr.Spelled 0 (.function d) (([start] ++ us).map Token.word) := by
    rw [List.map_append, hstart]
    exact .function hname hd
  have hl : Placed 0 (.function d) (([start] ++ us).map Token.word) j :=
    placed_of_tight hspelled hord rfl rfl
  refine .bind ((traces_expressionFrom hg hl
    fun horder => exact_of_covers hspelled (hcovers horder)).and
    (finds_expressionFrom hg.sound hl).traces) fun first vs _ _ h => ?_
  obtain ⟨hexact, hplaced, -⟩ := h
  rw [← List.map_append] at hplaced
  refine (traces_sequenceRest hg hexact hplaced.spelled hplaced.ordered).weaken
    fun e ws _ h horder => ?_
  have hts : [start] ++ (us ++ (vs ++ ws)) = [start] ++ us ++ vs ++ ws := by simp
  rw [hts] at horder ⊢
  exact h horder

theorem exact_functionRule (hg : g.Exact) : ExactStmt i (functionRule g) := by
  rw [functionRule_eq_literalRule]
  refine .bind ((traces_keyword .funWord).and (finds_keyword .funWord).traces)
    fun start _ _ _ h => ?_
  obtain ⟨rfl, hstart⟩ := h
  refine .bind (traces_check _) fun found _ j _ h => ?_
  obtain ⟨rfl, rfl⟩ := h
  cases found with
  | true =>
    refine .bind (traces_literalRule hg hstart) fun e us _ _ h => .pure fun horder => ?_
    rw [List.nil_append, List.append_nil] at horder ⊢
    exact (h horder).toStmt
  | false =>
    refine .bind (traces_ident.and finds_ident.traces) fun n us _ _ h => ?_
    obtain ⟨-, hname⟩ := h
    refine .bind ((traces_functionRest hg n start us).and (finds_functionRest hg.sound n _).traces)
      fun d vs _ _ h => .pure fun horder => ?_
    obtain ⟨hcovers, rfl, hd, -⟩ := h
    rw [List.nil_append, List.append_nil] at horder ⊢
    obtain ⟨hextent, hrows⟩ := hcovers horder
    have hspelled : Stmt.Spelled 0 (.functionDecl d) (([start] ++ (us ++ vs)).map Token.word) := by
      rw [List.map_append, List.map_append, hstart, hname]
      exact .functionDecl hd
    exact .whole rfl hspelled hextent ((hrows.after us).after [start])

/-- Each statement has the place of its tokens, without the semicolon that may come after it. -/
theorem exact_bareStatement (hg : g.Exact) : ExactStmt i (bareStatement g) := by
  refine .bind traces_peek fun token _ j _ h => ?_
  obtain ⟨hnext, rfl, rfl⟩ := h
  have hword {s : Stmt} (hk : token.kind ≠ .eof) (hs : s.Spelled 0 [token.word])
      (hcovers : (Part.stmt s).isPair = false ∧ (Part.stmt s).Covers [token]) :
      ExactStmt j (do let _ ← next; return s) := by
    refine .bind (traces_next.and (finds_peeked hnext hk).traces)
      fun t us _ _ h => .pure fun _ => ?_
    obtain ⟨hus, rfl, -⟩ := h
    obtain rfl := hus hk
    exact .whole hcovers.1 hs hcovers.2.1 hcovers.2.2
  split
  next => exact covers_includeRule.exact finds_includeRule
  next => exact (covers_returnRule hg).exact (finds_returnRule hg.sound)
  next =>
    exact (covers_conditionalRule hg).exact
      ((finds_conditionalRule hg.sound).weaken fun _ _ _ _ h => ⟨h.1, h.2.1⟩)
  next => exact (covers_whileRule hg).exact (finds_whileRule hg.sound)
  next => exact (covers_doWhileRule hg).exact (finds_doWhileRule hg.sound)
  next => exact exact_forRule hg
  next hk =>
    exact hword (by simp [hk]) (by rw [Token.word, hk]; exact .breakLoop)
      ⟨rfl, .token token, .nil⟩
  next hk =>
    exact hword (by simp [hk]) (by rw [Token.word, hk]; exact .continueLoop)
      ⟨rfl, .token token, .nil⟩
  next => exact (covers_moduleRule hg).exact (finds_moduleRule hg.sound)
  next => exact (covers_classRule hg).exact (finds_classRule hg.sound)
  next => exact exact_functionRule hg
  next =>
    refine .bind (traces_sequenceRule hg) fun e ts _ _ h => .pure fun horder => ?_
    rw [List.nil_append, List.append_nil] at horder ⊢
    exact (h horder).toStmt

theorem traces_statementRule (hg : g.Exact) : Traces i (statementRule g) fun s ts _ =>
    ∃ us vs, ts = us ++ vs ∧ (InOrder us → (Part.stmt s).Exact us) :=
  .bind (exact_bareStatement hg) fun _ us _ _ hs => .bind (traces_skip .semicolon)
    fun _ vs _ _ _ => .pure ⟨us, vs, by simp, hs⟩

/-- The grammar of any depth gives parts that have the places of their tokens. -/
theorem exact_ofDepth (depth : Nat) : (ofDepth depth).Exact := by
  induction depth with
  | zero => exact exact_empty
  | succ depth ih =>
    exact ⟨sound_ofDepth (depth + 1), fun least _ => traces_expressionRule ih least,
      fun _ => traces_statementRule ih, fun _ => (covers_conditionalRule ih).exact
        ((finds_conditionalRule ih.sound).weaken fun _ _ _ _ h => ⟨h.1, h.2.1⟩)⟩

end Grammar

namespace Parser

variable {i : Input}

theorem traces_expression : Traces i expression fun e ts _ =>
    (InOrder ts → (Part.expr e).Exact ts) ∧ e.Spelled 0 (ts.map Token.word) ∧ e.Ordered := by
  refine .bind traces_remaining fun _ _ _ _ h => ?_
  obtain ⟨rfl, rfl⟩ := h
  exact (Grammar.exact_ofDepth _).inner _

theorem traces_sequence :
    Traces i sequence fun e ts _ => InOrder ts → (Part.expr e).Exact ts := by
  refine .bind traces_expression fun first us _ _ hfirst => ?_
  refine .bind traces_remaining fun _ _ _ _ h => ?_
  obtain ⟨rfl, rfl⟩ := h
  exact Grammar.traces_sequenceRest (Grammar.exact_ofDepth _) hfirst.1 hfirst.2.1 hfirst.2.2

theorem traces_statement : Traces i statement fun s ts _ =>
    ∃ us vs, ts = us ++ vs ∧ (InOrder us → (Part.stmt s).Exact us) := by
  refine .bind traces_remaining fun _ _ _ _ h => ?_
  obtain ⟨rfl, rfl⟩ := h
  exact (Grammar.exact_ofDepth _).statement _

theorem traces_statements (room : Nat) (body : List Stmt) :
    Traces i (statements room body) fun r ts _ => ∃ ss, r = ss.reverse ++ body ∧
      (InOrder ts → Rows (stmts ss) ts) := by
  induction room generalizing i body with
  | zero => exact .pure ⟨[], rfl, fun _ => .nil⟩
  | succ room ih =>
    refine .bind traces_remaining fun _ _ _ _ h => ?_
    obtain ⟨rfl, rfl⟩ := h
    refine .bind (traces_skipSemicolons _) fun _ us _ _ _ => .bind (traces_check .eof)
      fun atEnd _ _ _ h => ?_
    obtain ⟨rfl, rfl⟩ := h
    cases atEnd with
    | true => exact .pure ⟨[], rfl, fun _ => .nil⟩
    | false =>
      refine .bind traces_statement fun s _ _ _ hs => (ih (s :: body)).weaken ?_
      obtain ⟨vs, ws, rfl, hs⟩ := hs
      rintro _ xs _ ⟨ss, rfl, hss⟩
      refine ⟨s :: ss, by simp, fun horder => ?_⟩
      have hts : [] ++ (us ++ ([] ++ (vs ++ ws ++ xs))) = us ++ (vs ++ (ws ++ xs)) := by simp
      rw [hts] at horder ⊢
      have hrest := (hss horder.right.right.right).after ws
      exact ((Rows.one (hs horder.right.left)).append hrest).after us

theorem traces_program : Traces i program fun p ts _ => InOrder ts → Rows (stmts p) ts := by
  refine .bind traces_remaining fun _ _ _ _ h => ?_
  obtain ⟨rfl, rfl⟩ := h
  refine .bind (traces_statements _ []) fun r ts _ _ h => .pure ?_
  obtain ⟨ss, rfl, hss⟩ := h
  simpa using hss

end Parser
end Rill.Syntax
