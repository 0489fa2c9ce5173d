import Rill.Proofs.Syntax.Building
import Rill.Proofs.Syntax.Extents.Programs

/-! Every expression of a statement, however deep in a program that is read, has a table that was
built at some place of the source. -/
namespace Rill.Syntax

open Rill.Syntax.Parser
open Rill.Syntax.Part (exprs stmts)
open Builder (Follows)

/-- What is left of a source after its first `n` pieces. -/
def Input.after (source : String) (n : Nat) : Input :=
  ⟨(Token.pieces source).drop n, Token.endOf source⟩

/-- What a builder of a table of its own gives at some place of the source. -/
def Builder.Gives (source : String) (built : Option (Nat × Arena)) : Prop :=
  ∃ x y, Follows x y ∧ ∃ n j, table x (.after source n) = .ok built j

variable {α β : Type} {source : String}

/-- The table of the expression was built at some place of the source. -/
def Expr.Tabled (source : String) (e : Expr) : Prop :=
  Builder.Gives source (some (e.arena.last, e.arena))

theorem Builder.Follows.tabled {x : Builder Nat} {y : Parser Expr} (h : Follows x y) {n : Nat}
    {e : Expr} {j : Input} (hrun : y (.after source n) = .ok e j) : e.Tabled source := by
  refine ⟨x, y, h, n, j, ?_⟩
  rw [h.table, Builder.tabled, bind_of_ok hrun]
  rfl

/-! ### Parts of which all expressions have tables -/

namespace Part

/-- The expressions of the statements inside the part have tables that were built. -/
def Backed (source : String) (x : Part) : Prop :=
  ∀ s, x.Inner (stmt s) → ∀ e ∈ s.exprs, e.Tabled source

theorem Inner.eq_or_part {x z : Part} (h : x.Inner z) : z = x ∨ ∃ y ∈ x.parts, y.Inner z := by
  induction h with
  | refl => exact .inl rfl
  | part _ hmem ih =>
    rcases ih with rfl | ⟨y, hy, hinner⟩
    · exact .inr ⟨_, hmem, .refl⟩
    · exact .inr ⟨y, hy, hinner.part hmem⟩

theorem Backed.expr {e : Expr} (h : ∀ x ∈ (expr e).parts, x.Backed source) :
    (expr e).Backed source := by
  intro s hs
  rcases hs.eq_or_part with heq | ⟨x, hx, hinner⟩
  · cases heq
  · exact h x hx s hinner

theorem Backed.stmt {s : Stmt} (hown : ∀ e ∈ s.exprs, e.Tabled source)
    (h : ∀ x ∈ (stmt s).parts, x.Backed source) : (stmt s).Backed source := by
  intro t ht
  rcases ht.eq_or_part with heq | ⟨x, hx, hinner⟩
  · cases heq
    exact hown
  · exact h x hx t hinner

/-- The parts of a statement are its expressions and the statements in its bodies. -/
theorem mem_parts_stmt {s : Stmt} {x : Part} (h : x ∈ (Part.stmt s).parts) :
    (∃ e ∈ s.exprs, x = .expr e) ∨ ∃ body ∈ s.bodies, ∃ t ∈ body.2, x = .stmt t := by
  cases s with
  | ifElse condition success failure span =>
    cases failure <;> simp [parts, stmts, Stmt.exprs, Stmt.bodies] at h ⊢ <;> grind
  | loop condition body step testAfter span =>
    cases testAfter <;> simp [parts, exprs, stmts, Stmt.exprs, Stmt.bodies] at h ⊢ <;> grind
  | _ => simp [parts, exprs, stmts, Stmt.exprs, Stmt.bodies] at h ⊢ <;> grind

end Part

/-- The expression and those inside it have tables that were built. -/
structure Expr.Owned (source : String) (e : Expr) : Prop where
  backed : (Part.expr e).Backed source
  tabled : e.Tabled source

/-- A statement is made of expressions with tables and of other such statements. -/
theorem Stmt.backed {s : Stmt} (hexprs : ∀ e ∈ s.exprs, e.Owned source)
    (hbodies : ∀ body ∈ s.bodies, ∀ t ∈ body.2, (Part.stmt t).Backed source) :
    (Part.stmt s).Backed source := by
  refine .stmt (fun e he => (hexprs e he).tabled) fun x hx => ?_
  rcases Part.mem_parts_stmt hx with ⟨e, he, rfl⟩ | ⟨body, hbody, t, ht, rfl⟩
  · exact (hexprs e he).backed
  · exact hbodies body hbody t ht

/-- A statement without expressions and without other statements in it. -/
theorem Stmt.backed_leaf {s : Stmt} (hexprs : s.exprs = []) (hbodies : s.bodies = []) :
    (Part.stmt s).Backed source :=
  Stmt.backed (by simp [hexprs]) (by simp [hbodies])

/-! ### Readers anywhere in a source -/

/-- Anywhere in the source, if the reader succeeds then it leaves the rest of the source, and `P`
holds of what it gives. -/
def Parser.Yields (source : String) (p : Parser α) (P : α → Prop) : Prop :=
  ∀ n a j, p (.after source n) = .ok a j → (∃ m, j = .after source m) ∧ P a

namespace Parser.Yields

variable {p : Parser α} {P P' : α → Prop} {Q : β → Prop}

theorem pure {a : α} (h : P a) : Yields source (pure a) P := by
  rintro n _ _ ⟨⟩
  exact ⟨⟨n, rfl⟩, h⟩

theorem bind {f : α → Parser β} (hp : Yields source p P) (hf : ∀ a, P a → Yields source (f a) Q) :
    Yields source (p >>= f) Q := by
  intro n b k hrun
  obtain ⟨a, j, hpa, hfa⟩ := of_bind_eq_ok hrun
  obtain ⟨⟨m, rfl⟩, ha⟩ := hp n a j hpa
  exact hf a ha m b k hfa

theorem weaken (hp : Yields source p P) (h : ∀ a, P a → P' a) : Yields source p P' := by
  intro n a j hrun
  obtain ⟨hj, ha⟩ := hp n a j hrun
  exact ⟨hj, h a ha⟩

theorem fail {fault : Fault} {span : Text.Span} : Yields source (Parser.fail fault span) P := nofun

/-- A reader that consumes tokens leaves the rest of the source. -/
theorem traced {S : Input → α → List Token → Input → Prop} (h : ∀ i, Traces i p (S i)) :
    Yields source p fun _ => True := by
  intro n a j hrun
  obtain ⟨ts, hts, hfinish, -⟩ := h (.after source n) rfl a j hrun
  refine ⟨⟨n + ts.length, ?_⟩, trivial⟩
  have hdrop : j.rest = ((Token.pieces source).drop n).drop ts.length := by
    have hlength : (ts.map Except.ok ++ j.rest).drop (ts.map Except.ok).length = j.rest :=
      List.drop_left
    rw [← hts, List.length_map] at hlength
    exact hlength.symm
  rw [List.drop_drop] at hdrop
  cases j
  exact congr (congrArg Input.mk hdrop) hfinish

/-- What is read into a table of its own has that table. -/
theorem owned {x : Builder Nat} {y : Parser Expr} (h : Follows x y)
    (hy : Yields source y fun e => (Part.expr e).Backed source) :
    Yields source y (Expr.Owned source) := by
  intro n e j hrun
  obtain ⟨hj, he⟩ := hy n e j hrun
  exact ⟨hj, he, h.tabled hrun⟩

end Parser.Yields

namespace Grammar

/-- What a grammar gives in a source is backed by tables. -/
structure Backs (source : String) (g : Grammar) : Prop where
  expression (least : Nat) : Yields source (g.expression least) fun e => (Part.expr e).Backed source
  statement : Yields source g.statement fun s => (Part.stmt s).Backed source
  conditional : Yields source g.conditional fun s => (Part.stmt s).Backed source

/-- The reader gives an expression whose function literals are backed by tables. -/
abbrev BacksExpr (source : String) (p : Parser Expr) : Prop :=
  Yields source p fun e => (Part.expr e).Backed source

abbrev BacksStmt (source : String) (p : Parser Stmt) : Prop :=
  Yields source p fun s => (Part.stmt s).Backed source

/-- The same of several expressions. -/
abbrev AllBacked (source : String) (es : List Expr) : Prop :=
  ∀ e ∈ es, (Part.expr e).Backed source

variable {g : Grammar}

theorem yields_noExpression {P : α → Prop} : Yields source noExpression P :=
  .bind (.traced fun _ => traces_next) fun _ _ => .fail

theorem yields_ident : Yields source ident fun _ => True := .traced fun _ => traces_ident

/-! ### Expressions -/

theorem yields_sequenceParts (hg : g.Backs source) (room : Nat) {parts : List Expr}
    (hparts : AllBacked source parts) :
    Yields source (sequenceParts g room parts) (AllBacked source) := by
  induction room generalizing parts with
  | zero => exact .pure hparts
  | succ room ih =>
    refine .bind (.traced fun _ => traces_skip _) fun more _ => ?_
    split
    · exact .bind (hg.expression 0) fun e he => ih (List.forall_mem_cons.mpr ⟨he, hparts⟩)
    · exact .pure hparts

theorem backs_sequenceRest (hg : g.Backs source) {first : Expr}
    (hfirst : (Part.expr first).Backed source) : BacksExpr source (sequenceRest g first) := by
  refine .bind (.traced fun _ => traces_remaining) fun room _ => ?_
  refine .bind (yields_sequenceParts hg room nofun) fun parts hparts => ?_
  split
  · exact .pure hfirst
  · refine .pure (.expr fun x hx => ?_)
    obtain ⟨e, he, rfl⟩ := List.mem_map.mp hx
    rcases List.mem_cons.mp he with rfl | he
    · exact hfirst
    · exact hparts e (List.mem_reverse.mp he)

theorem backs_innerSequence (hg : g.Backs source) : BacksExpr source (innerSequence g) :=
  .bind (hg.expression 0) fun _ he => backs_sequenceRest hg he

theorem yields_delimitedParts (hg : g.Backs source) (closing : Symbol) (room : Nat)
    {parts : List Expr} (hparts : AllBacked source parts) :
    Yields source (delimitedParts g closing room parts) fun r => AllBacked source r.1 := by
  induction room generalizing parts with
  | zero => exact yields_noExpression
  | succ room ih =>
    refine .bind (.traced fun _ => traces_eat? nofun) fun stop _ => ?_
    split
    · exact .pure hparts
    · refine .bind (hg.expression 0) fun e he => ?_
      have hall : AllBacked source (e :: parts) := List.forall_mem_cons.mpr ⟨he, hparts⟩
      refine .bind (.traced fun _ => traces_skip _) fun more _ => ?_
      split
      · exact ih hall
      · exact .bind (.traced fun _ => traces_symbol _) fun _ _ => .pure hall

theorem yields_delimited (hg : g.Backs source) (closing : Symbol) :
    Yields source (delimited g closing) fun r => AllBacked source r.1 :=
  .bind (.traced fun _ => traces_remaining) fun room _ =>
    .bind (yields_delimitedParts hg closing room nofun) fun _ h =>
      .pure fun e he => h e (List.mem_reverse.mp he)

theorem yields_dictEntries (hg : g.Backs source) (room : Nat) {entries : List (Expr × Expr)}
    (hentries : ∀ entry ∈ entries, AllBacked source [entry.1, entry.2]) :
    Yields source (dictEntries g room entries) fun r =>
      ∀ entry ∈ r.1, AllBacked source [entry.1, entry.2] := by
  induction room generalizing entries with
  | zero => exact yields_noExpression
  | succ room ih =>
    refine .bind (.traced fun _ => traces_eat? nofun) fun stop _ => ?_
    split
    · exact .pure hentries
    · refine .bind (hg.expression 0) fun key hkey => ?_
      refine .bind (.traced fun _ => traces_symbol _) fun _ _ => ?_
      refine .bind (hg.expression 0) fun value hvalue => ?_
      have hall : ∀ entry ∈ (key, value) :: entries, AllBacked source [entry.1, entry.2] :=
        List.forall_mem_cons.mpr ⟨by simp [AllBacked, hkey, hvalue], hentries⟩
      refine .bind (.traced fun _ => traces_skip _) fun more _ => ?_
      split
      · exact ih hall
      · exact .bind (.traced fun _ => traces_symbol _) fun _ _ => .pure hall

theorem backs_dictLiteral (hg : g.Backs source) (start : Text.Span) :
    BacksExpr source (dictLiteral g start) := by
  refine .bind (.traced fun _ => traces_remaining) fun room _ => ?_
  refine .bind (yields_dictEntries hg room nofun) fun r h => .pure (.expr fun x hx => ?_)
  obtain ⟨e, he, rfl⟩ := List.mem_map.mp hx
  obtain ⟨entry, hentry, he⟩ := List.mem_flatMap.mp he
  exact h entry (List.mem_reverse.mp hentry) e he

theorem yields_blockStatements (hg : g.Backs source) (room : Nat) {body : List Stmt}
    (hbody : ∀ s ∈ body, (Part.stmt s).Backed source) :
    Yields source (blockStatements g room body) fun r =>
      ∀ s ∈ r.1, (Part.stmt s).Backed source := by
  induction room generalizing body with
  | zero => exact .bind (.traced fun _ => traces_next) fun _ _ => .fail
  | succ room ih =>
    refine .bind (.traced fun _ => traces_remaining) fun _ _ => ?_
    refine .bind (.traced fun _ => traces_skipSemicolons _) fun _ _ => ?_
    refine .bind (.traced fun _ => traces_eat? nofun) fun stop _ => ?_
    split
    · exact .pure hbody
    · refine .bind (.traced fun _ => traces_check _) fun atEnd _ => ?_
      split
      · exact .bind (.traced fun _ => traces_next) fun _ _ => .fail
      · exact .bind hg.statement fun s hs => ih (List.forall_mem_cons.mpr ⟨hs, hbody⟩)

theorem yields_block (hg : g.Backs source) :
    Yields source (block g) fun r => ∀ s ∈ r.1, (Part.stmt s).Backed source :=
  .bind (.traced fun _ => traces_symbol _) fun _ _ =>
    .bind (.traced fun _ => traces_remaining) fun room _ =>
      .bind (yields_blockStatements hg room nofun) fun _ h =>
        .pure fun s hs => h s (List.mem_reverse.mp hs)

theorem yields_functionRest (hg : g.Backs source) (name : Ident) (start : Text.Span) :
    Yields source (functionRest g name start) fun d => ∀ s ∈ d.body, (Part.stmt s).Backed source :=
  .bind (.traced fun _ => traces_symbol _) fun _ _ =>
    .bind (.traced fun _ => finds_parameterList.traces) fun _ _ =>
      .bind (yields_block hg) fun _ h => .pure h

theorem backs_functionLiteral (hg : g.Backs source) (start : Text.Span) :
    BacksExpr source (functionLiteral g start) := by
  refine .bind (yields_functionRest hg _ start) fun d h => .pure (.expr fun x hx => ?_)
  obtain ⟨s, hs, rfl⟩ := List.mem_map.mp hx
  exact h s hs

theorem backs_attributeRest {object : Expr} (h : (Part.expr object).Backed source) :
    BacksExpr source (attributeRest object) :=
  .bind yields_ident fun _ _ => .pure (.expr (by simpa [Part.parts, exprs, Expr.operands] using h))

theorem backs_classPath (room : Nat) {type : Expr} (h : (Part.expr type).Backed source) :
    BacksExpr source (classPath room type) := by
  induction room generalizing type with
  | zero => exact .pure h
  | succ room ih =>
    refine .bind (.traced fun _ => traces_skip _) fun more _ => ?_
    split
    · exact .bind (backs_attributeRest h) fun _ he => ih he
    · exact .pure h

theorem backs_classHead (hg : g.Backs source) : BacksExpr source (classHead g) := by
  refine .bind (.traced fun _ => traces_next) fun token _ => ?_
  split
  · exact .pure (.expr nofun)
  · refine .bind (hg.expression 0) fun e he => .bind (.traced fun _ => traces_symbol _) fun _ _ => ?_
    exact .pure (.expr (by simpa [Part.parts, exprs, Expr.operands] using he))
  · exact .fail

theorem backs_classExpr (hg : g.Backs source) : BacksExpr source (classExpr g) :=
  .bind (backs_classHead hg) fun _ he =>
    .bind (.traced fun _ => traces_remaining) fun room _ => backs_classPath room he

/-- What has a head and arguments is backed if these are. -/
theorem backed_of_operands {e head : Expr} {arguments : List Expr}
    (hparts : (Part.expr e).parts = exprs (head :: arguments))
    (hhead : (Part.expr head).Backed source) (h : AllBacked source arguments) :
    (Part.expr e).Backed source := by
  refine .expr fun x hx => ?_
  rw [hparts] at hx
  obtain ⟨e, he, rfl⟩ := List.mem_map.mp hx
  rcases List.mem_cons.mp he with rfl | he
  · exact hhead
  · exact h e he

theorem backs_createRest (hg : g.Backs source) (start : Text.Span) :
    BacksExpr source (createRest g start) :=
  .bind (backs_classExpr hg) fun _ htype => .bind (.traced fun _ => traces_symbol _) fun _ _ =>
    .bind (yields_delimited hg _) fun _ h => .pure (backed_of_operands rfl htype h)

theorem backs_operand (hg : g.Backs source) : BacksExpr source (operand g) := by
  refine .bind (.traced fun _ => traces_next) fun token _ => ?_
  dsimp only
  split
  case h_8 =>
    refine .bind (backs_innerSequence hg) fun _ he => .bind (.traced fun _ => traces_symbol _) ?_
    exact fun _ _ => .pure (backed_of_operands rfl he nofun)
  case h_9 =>
    refine .bind (yields_delimited hg _) fun r h => .pure (.expr fun x hx => ?_)
    obtain ⟨e, he, rfl⟩ := List.mem_map.mp hx
    exact h e he
  case h_10 => exact backs_dictLiteral hg _
  case h_11 => exact backs_functionLiteral hg _
  case h_12 => exact backs_createRest hg _
  case h_13 =>
    split
    · exact .bind (hg.expression _) fun _ he => .pure (backed_of_operands rfl he nofun)
    · exact .fail
  all_goals exact .pure (.expr nofun)

theorem backs_suffixRest (hg : g.Backs source) (suffix : Suffix) {object : Expr}
    (ho : (Part.expr object).Backed source) : BacksExpr source (suffixRest g suffix object) := by
  cases suffix with
  | call => exact .bind (yields_delimited hg _) fun _ h => .pure (backed_of_operands rfl ho h)
  | subscript =>
    refine .bind (hg.expression 0) fun index hi => .bind (.traced fun _ => traces_symbol _) ?_
    have hall : AllBacked source [index] := by simpa [AllBacked] using hi
    exact fun _ _ => .pure (backed_of_operands rfl ho hall)
  | dot => exact backs_attributeRest ho

/-- A right operand is backed, and so is the whole. -/
theorem backs_operands (hg : g.Backs source) (power : Nat) {lhs : Expr} {whole : Expr → Expr}
    (hl : (Part.expr lhs).Backed source)
    (hparts : ∀ rhs, (Part.expr (whole rhs)).parts = exprs [lhs, rhs]) :
    BacksExpr source (do return whole (← g.expression power)) :=
  .bind (hg.expression power) fun rhs hr =>
    .pure (backed_of_operands (hparts rhs) hl (by simpa [AllBacked] using hr))

theorem backs_extension? (hg : g.Backs source) {lhs : Expr} {token : Token} {power : Nat}
    {rest : Parser Expr} (hl : (Part.expr lhs).Backed source)
    (h : extension? g lhs token = some (power, rest)) : BacksExpr source rest := by
  unfold extension? at h
  split at h
  next suffix _ =>
    cases h
    exact backs_suffixRest hg suffix hl
  split at h
  next =>
    cases h
    exact backs_operands hg _ hl fun _ => rfl
  split at h
  next =>
    cases h
    exact backs_operands hg _ hl fun _ => rfl
  split at h
  next op _ =>
    cases h
    split
    next => exact .fail
    next target htarget =>
      refine backs_operands hg _ hl fun rhs => ?_
      rw [Part.parts, toExpr_of_target? htarget]
      rfl
  next => cases h

theorem backs_extend (hg : g.Backs source) (least room : Nat) {lhs : Expr}
    (hl : (Part.expr lhs).Backed source) : BacksExpr source (extend g least room lhs) := by
  induction room generalizing lhs with
  | zero => exact .pure hl
  | succ room ih =>
    refine .bind (.traced fun _ => traces_peek) fun token _ => ?_
    split
    next => exact .pure hl
    next power rest hrest =>
      split
      · exact .pure hl
      · refine .bind (.traced fun _ => traces_next) fun _ _ => ?_
        exact .bind (backs_extension? hg hl hrest) fun _ he => ih he

theorem backs_expressionFrom (hg : g.Backs source) (least : Nat) {lhs : Expr}
    (hl : (Part.expr lhs).Backed source) : BacksExpr source (expressionFrom g least lhs) :=
  .bind (.traced fun _ => traces_remaining) fun room _ => backs_extend hg least room hl

theorem backs_expressionRule (hg : g.Backs source) (least : Nat) :
    BacksExpr source (expressionRule g least) :=
  .bind (backs_operand hg) fun _ he => backs_expressionFrom hg least he

theorem backs_sequenceRule (hg : g.Backs source) : BacksExpr source (sequenceRule g) :=
  .bind (backs_expressionRule hg 0) fun _ he => backs_sequenceRest hg he

theorem backs_literalRule (hg : g.Backs source) (start : Text.Span) :
    BacksExpr source (literalRule g start) :=
  .bind (backs_functionLiteral hg start) fun _ hl =>
    .bind (backs_expressionFrom hg 0 hl) fun _ he => backs_sequenceRest hg he

/-! ### Statements -/

section

variable {depth : Nat}

theorem owned_expression (hg : (ofDepth depth).Backs source) :
    Yields source ((ofDepth depth).expression 0) (Expr.Owned source) :=
  .owned (.inner depth 0) (hg.expression 0)

theorem owned_innerSequence (hg : (ofDepth depth).Backs source) :
    Yields source (innerSequence (ofDepth depth)) (Expr.Owned source) :=
  .owned (.innerSequence depth) (backs_innerSequence hg)

theorem owned_sequenceUnless (hg : (ofDepth depth).Backs source) (terminator : Symbol) :
    Yields source (sequenceUnless (ofDepth depth) terminator) fun found =>
      ∀ e ∈ found.toList, e.Owned source := by
  refine .bind (.traced fun _ => traces_check _) fun found _ => ?_
  split
  · exact .pure nofun
  · exact .bind (owned_innerSequence hg) fun e he => .pure (by simpa using he)

theorem backs_includeRule : BacksStmt source includeRule :=
  .bind (.traced fun _ => traces_keyword _) fun _ _ =>
    .bind (.traced fun _ => traces_expect nofun) fun _ _ => .pure (Stmt.backed_leaf rfl rfl)

theorem backs_returnRule (hg : (ofDepth depth).Backs source) :
    BacksStmt source (returnRule (ofDepth depth)) := by
  refine .bind (.traced fun _ => traces_keyword _) fun _ _ => ?_
  refine .bind (.traced fun _ => traces_peek) fun _ _ => ?_
  split
  case h_4 =>
    refine .bind (owned_innerSequence hg) fun e he => .pure (Stmt.backed ?_ ?_)
    · simpa [Stmt.exprs] using he
    · simp [Stmt.bodies]
  all_goals exact .pure (Stmt.backed_leaf rfl rfl)

theorem backs_conditionalRule (hg : (ofDepth depth).Backs source) :
    BacksStmt source (conditionalRule (ofDepth depth)) := by
  refine .bind (.traced fun _ => traces_keyword _) fun _ _ => ?_
  refine .bind (owned_expression hg) fun e he => .bind (yields_block hg) fun success hsuccess => ?_
  have hexprs : ∀ f ∈ [e], f.Owned source := by simpa using he
  refine .bind (.traced fun _ => traces_eat? nofun) fun _ _ => ?_
  dsimp only
  split
  · exact .pure (Stmt.backed hexprs (by simpa [Stmt.bodies] using hsuccess))
  · refine .bind (.traced fun _ => traces_check _) fun _ _ => ?_
    split
    · refine .bind hg.conditional fun nested hnested => .pure (Stmt.backed hexprs ?_)
      simpa [Stmt.bodies] using ⟨hsuccess, hnested⟩
    · refine .bind (yields_block hg) fun failure hfailure => .pure (Stmt.backed hexprs ?_)
      simpa [Stmt.bodies] using ⟨hsuccess, hfailure⟩

theorem backs_whileRule (hg : (ofDepth depth).Backs source) :
    BacksStmt source (whileRule (ofDepth depth)) := by
  refine .bind (.traced fun _ => traces_keyword _) fun _ _ => ?_
  refine .bind (owned_expression hg) fun e he => .bind (yields_block hg) fun body hbody => ?_
  refine .pure (Stmt.backed ?_ ?_)
  · simpa [Stmt.exprs] using he
  · simpa [Stmt.bodies] using hbody

theorem backs_doWhileRule (hg : (ofDepth depth).Backs source) :
    BacksStmt source (doWhileRule (ofDepth depth)) := by
  refine .bind (.traced fun _ => traces_keyword _) fun _ _ => ?_
  refine .bind (yields_block hg) fun body hbody => ?_
  refine .bind (.traced fun _ => traces_keyword _) fun _ _ => ?_
  refine .bind (owned_expression hg) fun e he => .pure (Stmt.backed ?_ ?_)
  · simpa [Stmt.exprs] using he
  · simpa [Stmt.bodies] using hbody

theorem backs_forRule (hg : (ofDepth depth).Backs source) :
    BacksStmt source (forRule (ofDepth depth)) := by
  refine .bind (.traced fun _ => traces_keyword _) fun _ _ => ?_
  refine .bind (.traced fun _ => traces_skip _) fun _ _ => ?_
  split
  · refine .bind (owned_sequenceUnless hg _) fun initializer hi => ?_
    refine .bind (.traced fun _ => traces_symbol _) fun _ _ => ?_
    refine .bind (owned_sequenceUnless hg _) fun condition hc => ?_
    refine .bind (.traced fun _ => traces_symbol _) fun _ _ => ?_
    refine .bind (owned_sequenceUnless hg _) fun step hs => ?_
    refine .bind (.traced fun _ => traces_symbol _) fun _ _ => ?_
    refine .bind (yields_block hg) fun body hbody => ?_
    have hloop (span : Text.Span) :
        (Part.stmt (.loop condition body.1 step false span)).Backed source := by
      refine Stmt.backed (fun e he => ?_) (by simpa [Stmt.bodies] using hbody)
      exact (List.mem_append.mp he).elim (hc e) (hs e)
    dsimp only
    split
    next e =>
      have hfirst : (Part.stmt (.expr e)).Backed source :=
        Stmt.backed hi (by simp [Stmt.bodies])
      refine .pure (Stmt.backed (by simp [Stmt.exprs]) ?_)
      simpa [Stmt.bodies] using ⟨hfirst, hloop _⟩
    next =>
      refine .pure (Stmt.backed (by simp [Stmt.exprs]) ?_)
      simpa [Stmt.bodies] using hloop _
  · refine .bind yields_ident fun _ _ => .bind (.traced fun _ => traces_keyword _) fun _ _ => ?_
    refine .bind (owned_expression hg) fun e he => .bind (yields_block hg) fun body hbody => ?_
    refine .pure (Stmt.backed ?_ ?_)
    · simpa [Stmt.exprs] using he
    · simpa [Stmt.bodies] using hbody

theorem backs_moduleRule (hg : (ofDepth depth).Backs source) :
    BacksStmt source (moduleRule (ofDepth depth)) := by
  refine .bind (.traced fun _ => traces_keyword _) fun _ _ => .bind yields_ident fun _ _ => ?_
  refine .bind (yields_block hg) fun body hbody => .pure (Stmt.backed nofun ?_)
  simpa [Stmt.bodies] using hbody

theorem owned_superclass? (hg : (ofDepth depth).Backs source) :
    Yields source (superclass? (ofDepth depth)) fun found =>
      ∀ e ∈ found.toList, e.Owned source := by
  refine .bind (.traced fun _ => traces_skip _) fun _ _ => ?_
  split
  · refine .bind (owned_expression hg) fun e he => .bind (.traced fun _ => traces_symbol _) ?_
    exact fun _ _ => .pure (by simpa using he)
  · exact .pure nofun

theorem backs_classRule (hg : (ofDepth depth).Backs source) :
    BacksStmt source (classRule (ofDepth depth)) := by
  refine .bind (.traced fun _ => traces_keyword _) fun _ _ => .bind yields_ident fun _ _ => ?_
  refine .bind (owned_superclass? hg) fun superclass hsuper => ?_
  refine .bind (yields_block hg) fun body hbody => .pure (Stmt.backed hsuper ?_)
  simpa [Stmt.bodies] using hbody

/-- The table of an expression that starts with a function literal begins at the keyword. -/
theorem backs_functionRule (hg : (ofDepth depth).Backs source) :
    BacksStmt source (functionRule (ofDepth depth)) := by
  have hliteral := Yields.owned (.literalRule depth)
    (.bind (.traced fun _ => traces_keyword _) fun start _ => backs_literalRule hg start.span)
  intro n s j hrun
  rw [functionRule_eq_literalRule] at hrun
  obtain ⟨start, i, hstart, hrun⟩ := of_bind_eq_ok hrun
  have hkeyword : Yields source (keyword .funWord) fun _ => True :=
    .traced fun _ => traces_keyword .funWord
  obtain ⟨⟨m, rfl⟩, -⟩ := hkeyword n start i hstart
  obtain ⟨found, k, hcheck, hrun⟩ := of_bind_eq_ok hrun
  obtain ⟨-, -, -, -, rfl⟩ := traces_check _ (i := .after source m) rfl found k hcheck
  cases found with
  | true =>
    obtain ⟨e, k, he, hpure⟩ := of_bind_eq_ok hrun
    cases hpure
    obtain ⟨hj, howned⟩ := hliteral n e j (by rw [bind_of_ok hstart]; exact he)
    exact ⟨hj, Stmt.backed (by simpa [Stmt.exprs] using howned) (by simp [Stmt.bodies])⟩
  | false =>
    have hdecl : BacksStmt source (do
        let name ← ident
        return .functionDecl (← functionRest (ofDepth depth) name start.span)) :=
      .bind yields_ident fun name _ => .bind (yields_functionRest hg name _) fun d hd =>
        .pure (Stmt.backed (by simp [Stmt.exprs]) (by simpa [Stmt.bodies] using hd))
    exact hdecl m s j hrun

theorem backs_bareStatement (hg : (ofDepth depth).Backs source) :
    BacksStmt source (bareStatement (ofDepth depth)) := by
  refine .bind (.traced fun _ => traces_peek) fun token _ => ?_
  split
  next => exact backs_includeRule
  next => exact backs_returnRule hg
  next => exact backs_conditionalRule hg
  next => exact backs_whileRule hg
  next => exact backs_doWhileRule hg
  next => exact backs_forRule hg
  next => exact .bind (.traced fun _ => traces_next) fun _ _ => .pure (Stmt.backed_leaf rfl rfl)
  next => exact .bind (.traced fun _ => traces_next) fun _ _ => .pure (Stmt.backed_leaf rfl rfl)
  next => exact backs_moduleRule hg
  next => exact backs_classRule hg
  next => exact backs_functionRule hg
  next =>
    have howned := Yields.owned (.sequenceRule depth) (backs_sequenceRule hg)
    refine .bind howned fun e he => .pure (Stmt.backed ?_ ?_)
    · simpa [Stmt.exprs] using he
    · simp [Stmt.bodies]

theorem backs_statementRule (hg : (ofDepth depth).Backs source) :
    BacksStmt source (statementRule (ofDepth depth)) :=
  .bind (backs_bareStatement hg) fun _ hs => .bind (.traced fun _ => traces_skip _) fun _ _ => .pure hs

end

theorem backs_ofDepth (depth : Nat) : (ofDepth depth).Backs source := by
  induction depth with
  | zero => exact ⟨fun _ => yields_noExpression, yields_noExpression, yields_noExpression⟩
  | succ depth ih =>
    exact ⟨backs_expressionRule ih, backs_statementRule ih, backs_conditionalRule ih⟩

end Grammar

/-! ### Whole programs -/

namespace Parser

open Grammar (backs_ofDepth)

theorem owned_expression : Yields source expression (Expr.Owned source) :=
  .owned .expression (.bind (.traced fun _ => traces_remaining) fun depth _ =>
    (backs_ofDepth depth).expression 0)

theorem owned_sequence : Yields source sequence (Expr.Owned source) :=
  .owned .sequence (.bind owned_expression fun _ he =>
    .bind (.traced fun _ => traces_remaining) fun depth _ =>
      Grammar.backs_sequenceRest (backs_ofDepth depth) he.backed)

theorem backs_statement : Grammar.BacksStmt source statement :=
  .bind (.traced fun _ => traces_remaining) fun depth _ => (backs_ofDepth depth).statement

theorem yields_statements (room : Nat) {body : List Stmt}
    (hbody : ∀ s ∈ body, (Part.stmt s).Backed source) :
    Yields source (statements room body) fun r => ∀ s ∈ r, (Part.stmt s).Backed source := by
  induction room generalizing body with
  | zero => exact .pure hbody
  | succ room ih =>
    refine .bind (.traced fun _ => traces_remaining) fun _ _ => ?_
    refine .bind (.traced fun _ => traces_skipSemicolons _) fun _ _ => ?_
    refine .bind (.traced fun _ => traces_check _) fun atEnd _ => ?_
    split
    · exact .pure hbody
    · exact .bind backs_statement fun s hs => ih (List.forall_mem_cons.mpr ⟨hs, hbody⟩)

theorem yields_program :
    Yields source program fun p => ∀ s ∈ p, (Part.stmt s).Backed source :=
  .bind (.traced fun _ => traces_remaining) fun room _ => .bind (yields_statements room nofun)
    fun _ h => .pure fun s hs => h s (List.mem_reverse.mp hs)

end Parser
end Rill.Syntax
