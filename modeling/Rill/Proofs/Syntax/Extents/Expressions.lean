import Rill.Proofs.Syntax.Extents
import Rill.Proofs.Syntax.Soundness

/-! Expressions and blocks cover the tokens that they are read from. -/
namespace Rill.Syntax

open Text (Span)
open Rill.Syntax.Parser
open Rill.Syntax.Part (Rows exprs stmts)

/-- What the readers of a grammar give covers the tokens that they read. -/
structure Grammar.Exact (g : Grammar) : Prop where
  sound : g.Sound
  expression (least : Nat) (i : Input) :
    Traces i (g.expression least) fun e ts _ => InOrder ts → (Part.expr e).Exact ts
  statement (i : Input) : Traces i g.statement fun s ts _ =>
    ∃ us vs, ts = us ++ vs ∧ (InOrder us → (Part.stmt s).Exact us)
  conditional (i : Input) :
    Traces i g.conditional fun s ts _ => InOrder ts → (Part.stmt s).Exact ts

/-- A class is named by an expression. -/
theorem ClassSpelled.spelled {least : Nat} {e : Expr} {ws : List Token.Word} :
    ClassSpelled least e ws → e.Spelled least ws
  | .var => .var
  | .group h => .group (.one h)
  | .attr h => .attr h.spelled

/-- The place of the part is that of the tokens, where the parts inside it follow one another. -/
def Part.Covers (x : Part) (ts : List Token) : Prop := Extent ts x.span ∧ Rows x.parts ts

namespace Grammar

variable {g : Grammar} {i : Input}

theorem traces_noExpression {α : Type} {S : α → List Token → Input → Prop} :
    Traces i noExpression S :=
  .bind traces_next fun _ _ _ _ _ => .fail

theorem exact_empty : empty.Exact :=
  ⟨sound_empty, fun _ _ => traces_noExpression, fun _ => traces_noExpression,
    fun _ => traces_noExpression⟩

theorem traces_ident : Traces i ident fun n ts _ => ∃ t, ts = [t] ∧ n.span = t.span :=
  .bind (traces_expect nofun) fun t us _ _ h => .pure ⟨t, by simp [h], rfl⟩

/-! ### Lists of expressions -/

/-- The tokens end with those of the last part. -/
def EndsWith (es : List Expr) (ts : List Token) : Prop :=
  match es.getLast? with
  | none => ts = []
  | some e => ∃ gap us, ts = gap ++ us ∧ Extent us e.span

theorem EndsWith.cons {e : Expr} {es : List Expr} {gap us vs : List Token} (h : EndsWith es vs)
    (he : Extent us e.span) : EndsWith (e :: es) (gap ++ (us ++ vs)) := by
  cases es with
  | nil =>
    have hnil : vs = [] := h
    exact ⟨gap, us, by rw [hnil, List.append_nil], he⟩
  | cons f es =>
    unfold EndsWith at h ⊢
    rw [List.getLast?_cons_cons]
    split
    next hnone => simp at hnone
    next last hlast =>
      rw [hlast] at h
      obtain ⟨gap', ws, rfl, hextent⟩ := h
      exact ⟨gap ++ (us ++ gap'), ws, by simp, hextent⟩

theorem traces_sequenceParts (hg : g.Exact) (room : Nat) (parts : List Expr) :
    Traces i (sequenceParts g room parts) fun r ts _ => ∃ es, r = es.reverse ++ parts ∧
      (InOrder ts → Rows (exprs es) ts ∧ EndsWith es ts) := by
  induction room generalizing i parts with
  | zero => exact .pure ⟨[], rfl, fun _ => ⟨.nil, rfl⟩⟩
  | succ room ih =>
    refine .bind (traces_skip .comma) fun found us j _ h => ?_
    cases found with
    | false =>
      obtain ⟨rfl, rfl⟩ := h
      exact .pure ⟨[], rfl, fun _ => ⟨.nil, rfl⟩⟩
    | true =>
      obtain ⟨t, rfl⟩ := h
      refine .bind (hg.expression 0 j) fun e us _ _ he => (ih (e :: parts)).weaken ?_
      rintro _ vs _ ⟨es, rfl, hes⟩
      refine ⟨e :: es, by simp, fun horder => ?_⟩
      have hexact := he horder.right.left
      obtain ⟨hrows, hends⟩ := hes horder.right.right
      exact ⟨((Rows.one hexact).append hrows).after [t], hends.cons hexact.extent⟩

/-- A sequence of which the first part has been read. -/
theorem traces_sequenceRest (hg : g.Exact) {first : Expr} {us : List Token}
    (hfirst : InOrder us → (Part.expr first).Exact us)
    (hs : first.Spelled 0 (us.map Token.word)) (ho : first.Ordered) :
    Traces i (sequenceRest g first) fun e ts _ =>
      InOrder (us ++ ts) → (Part.expr e).Exact (us ++ ts) := by
  have hcovers : Traces i (sequenceRest g first) fun e ts _ => InOrder (us ++ ts) →
      (Part.expr e).Exact (us ++ ts) ∨ (Part.expr e).Covers (us ++ ts) := by
    refine .bind traces_remaining fun _ _ _ _ h => ?_
    obtain ⟨rfl, rfl⟩ := h
    refine .bind (traces_sequenceParts hg _ []) fun parts vs j _ h => ?_
    obtain ⟨es, rfl, hes⟩ := h
    rw [List.append_nil]
    split
    next hnil =>
      obtain rfl := List.reverse_eq_nil_iff.mp hnil
      refine .pure fun horder => .inl ?_
      obtain ⟨-, hends⟩ := hes (by simpa using horder.right)
      have hvs : vs = [] := hends
      subst hvs
      simpa using hfirst horder.left
    next last middle hcons =>
      refine .pure fun horder => .inr ?_
      simp only [List.nil_append, List.append_nil] at horder ⊢
      have hexact := hfirst horder.left
      obtain ⟨hrows, hends⟩ := hes horder.right
      have hlast : es.getLast? = some last := by
        rw [← List.head?_reverse, hcons, List.head?_cons]
      rw [EndsWith, hlast] at hends
      obtain ⟨gap, ws, rfl, hextent⟩ := hends
      rw [← hcons, List.reverse_reverse]
      exact ⟨hexact.extent.merge hextent horder, (Rows.one hexact).append hrows⟩
  refine ((finds_sequenceRest hg.sound hs ho).traces.and hcovers).weaken ?_
  rintro e ts _ ⟨⟨hspelled, -⟩, hcovers⟩ horder
  rcases hcovers horder with hexact | ⟨hextent, hrows⟩
  · exact hexact
  · exact .whole rfl (by rwa [Part.Spelled, List.map_append]) hextent hrows

theorem Exact.inner (hg : g.Exact) (i : Input) : Traces i (g.expression 0) fun e ts _ =>
    (InOrder ts → (Part.expr e).Exact ts) ∧ e.Spelled 0 (ts.map Token.word) ∧ e.Ordered :=
  (hg.expression 0 i).and (hg.sound.inner i).traces

theorem traces_innerSequence (hg : g.Exact) :
    Traces i (innerSequence g) fun e ts _ => InOrder ts → (Part.expr e).Exact ts :=
  .bind (hg.inner i) fun _ _ _ _ h => traces_sequenceRest hg h.1 h.2.1 h.2.2

theorem traces_delimitedParts (hg : g.Exact) (closing : Symbol) (room : Nat) (parts : List Expr) :
    Traces i (delimitedParts g closing room parts) fun r ts _ => ∃ es us t,
      r.1 = es.reverse ++ parts ∧ r.2 = t.span ∧ ts = us ++ [t] ∧
        (InOrder us → Rows (exprs es) us) := by
  induction room generalizing i parts with
  | zero => exact traces_noExpression
  | succ room ih =>
    refine .bind (traces_eat? nofun) fun found us j _ h => ?_
    cases found with
    | some stop => exact .pure ⟨[], [], stop, rfl, rfl, by simp [h], fun _ => .nil⟩
    | none =>
      obtain ⟨rfl, rfl⟩ := h
      refine .bind (hg.expression 0 j) fun e us k _ he => .bind (traces_skip .comma)
        fun found vs _ _ h => ?_
      cases found with
      | true =>
        obtain ⟨t, rfl⟩ := h
        refine (ih (e :: parts)).weaken ?_
        rintro r ws _ ⟨es, ws, stop, hr, hstop, rfl, hes⟩
        refine ⟨e :: es, us ++ ([t] ++ ws), stop, by simpa using hr, hstop, by simp,
          fun horder => ?_⟩
        exact (Rows.one (he horder.left)).append ((hes horder.right.right).after [t])
      | false =>
        obtain ⟨rfl, rfl⟩ := h
        refine .bind (traces_symbol closing) fun stop ws _ _ h => .pure ?_
        exact ⟨[e], us, stop, rfl, rfl, by simp [h], fun horder => Rows.one (he horder)⟩

theorem traces_delimited (hg : g.Exact) (closing : Symbol) :
    Traces i (delimited g closing) fun r ts _ => ∃ us t,
      r.2 = t.span ∧ ts = us ++ [t] ∧ (InOrder us → Rows (exprs r.1) us) := by
  refine .bind traces_remaining fun _ _ _ _ h => ?_
  obtain ⟨rfl, rfl⟩ := h
  refine .bind (traces_delimitedParts hg closing _ []) fun r _ _ _ h => .pure ?_
  obtain ⟨es, us, t, hr, hstop, rfl, hes⟩ := h
  have hr : r.1.reverse = es := by simp [hr]
  exact ⟨us, t, hstop, by simp, by rwa [hr]⟩

theorem traces_dictEntries (hg : g.Exact) (room : Nat) (entries : List (Expr × Expr)) :
    Traces i (dictEntries g room entries) fun r ts _ =>
      ∃ (es : List (Expr × Expr)) (us : List Token) (t : Token),
      r.1 = es.reverse ++ entries ∧ r.2 = t.span ∧ ts = us ++ [t] ∧
        (InOrder us → Rows (exprs (es.flatMap fun (key, value) => [key, value])) us) := by
  induction room generalizing i entries with
  | zero => exact traces_noExpression
  | succ room ih =>
    refine .bind (traces_eat? nofun) fun found us j _ h => ?_
    cases found with
    | some stop => exact .pure ⟨[], [], stop, rfl, rfl, by simp [h], fun _ => .nil⟩
    | none =>
      obtain ⟨rfl, rfl⟩ := h
      refine .bind (hg.expression 0 j) fun key us _ _ hkey => .bind (traces_symbol .colon)
        fun colon _ k _ h => ?_
      subst h
      refine .bind (hg.expression 0 k) fun value vs k _ hvalue => .bind (traces_skip .comma)
        fun found ws _ _ h => ?_
      have hentry (horder : InOrder (us ++ ([colon] ++ vs))) : Rows [.expr key, .expr value]
          (us ++ ([colon] ++ vs)) :=
        (Rows.one (hkey horder.left)).append ((Rows.one (hvalue horder.right.right)).after [colon])
      cases found with
      | true =>
        obtain ⟨t, rfl⟩ := h
        refine (ih ((key, value) :: entries)).weaken ?_
        rintro r _ _ ⟨es, ws, stop, hr, hstop, rfl, hes⟩
        refine ⟨(key, value) :: es, us ++ ([colon] ++ vs) ++ ([t] ++ ws), stop, by simpa using hr,
          hstop, by simp, fun horder => ?_⟩
        exact (hentry horder.left).append ((hes horder.right.right).after [t])
      | false =>
        obtain ⟨rfl, rfl⟩ := h
        refine .bind (traces_symbol .rightBrace) fun stop ws _ _ h => .pure ?_
        exact ⟨[(key, value)], us ++ ([colon] ++ vs), stop, rfl, rfl, by simp [h], hentry⟩

/-! ### Blocks and functions -/

theorem traces_blockStatements (hg : g.Exact) (room : Nat) (body : List Stmt) :
    Traces i (blockStatements g room body) fun r ts _ => ∃ ss us t,
      r.1 = ss.reverse ++ body ∧ r.2 = t.span ∧ ts = us ++ [t] ∧
        (InOrder us → Rows (stmts ss) us) := by
  induction room generalizing i body with
  | zero => exact .bind traces_next fun _ _ _ _ _ => .fail
  | succ room ih =>
    refine .bind traces_remaining fun _ _ _ _ h => ?_
    obtain ⟨rfl, rfl⟩ := h
    refine .bind (traces_skipSemicolons _) fun _ us _ _ _ => .bind (traces_eat? nofun)
      fun found vs j _ h => ?_
    cases found with
    | some stop => exact .pure ⟨[], us, stop, rfl, rfl, by simp [h], fun _ => .nil⟩
    | none =>
      obtain ⟨rfl, rfl⟩ := h
      refine .bind (traces_check .eof) fun atEnd vs j _ h => ?_
      obtain ⟨rfl, rfl⟩ := h
      cases atEnd with
      | true => exact .bind traces_next fun _ _ _ _ _ => .fail
      | false =>
        refine .bind (hg.statement j) fun s _ _ _ hs => (ih (s :: body)).weaken ?_
        obtain ⟨vs, ws, rfl, hs⟩ := hs
        rintro r _ _ ⟨ss, xs, stop, hr, hstop, rfl, hss⟩
        refine ⟨s :: ss, us ++ (vs ++ (ws ++ xs)), stop, by simpa using hr, hstop, by simp,
          fun horder => ?_⟩
        have hrest := (hss horder.right.right.right).after ws
        exact ((Rows.one (hs horder.right.left)).append hrest).after us

/-- A block covers all from the opening to the closing brace. -/
theorem traces_block (hg : g.Exact) : Traces i (block g) fun r ts _ =>
    InOrder ts → Extent ts r.2 ∧ Rows (stmts r.1) ts := by
  refine .bind (traces_symbol .leftBrace) fun start _ _ _ h => ?_
  subst h
  refine .bind traces_remaining fun _ _ _ _ h => ?_
  obtain ⟨rfl, rfl⟩ := h
  refine .bind (traces_blockStatements hg _ []) fun r _ _ _ h => .pure fun horder => ?_
  obtain ⟨ss, us, t, hr, hstop, rfl, hss⟩ := h
  simp only [List.nil_append, List.append_nil] at horder ⊢
  have hr : r.1.reverse = ss := by simp [hr]
  rw [hr, hstop]
  exact ⟨(Extent.token start).merge (.token t) horder,
    ((hss horder.right.left).before [t]).after [start]⟩

/-- A function covers all from its start, after which a name may have been read, to the end of its
body. -/
theorem traces_functionRest (hg : g.Exact) (name : Ident) (start : Token) (gap : List Token) :
    Traces i (functionRest g name start.span) fun d ts _ => InOrder ([start] ++ (gap ++ ts)) →
      Extent ([start] ++ (gap ++ ts)) d.span ∧ Rows (stmts d.body) ts := by
  refine .bind (traces_symbol .leftParen) fun t us j _ _ => ?_
  have hparameters : Traces j parameterList fun _ _ _ => True :=
    finds_parameterList.traces.weaken fun _ _ _ _ => trivial
  refine .bind hparameters fun ns vs _ _ _ => ?_
  refine .bind (traces_block hg) fun r ws _ _ h => .pure fun horder => ?_
  rw [List.append_nil] at horder ⊢
  obtain ⟨hextent, hrows⟩ := h horder.right.right.right.right
  have hts : gap ++ (us ++ (vs ++ ws)) = (gap ++ us ++ vs) ++ ws := by simp
  rw [hts] at horder ⊢
  exact ⟨(Extent.token start).merge hextent horder, (hrows.after vs).after us⟩

theorem traces_functionLiteral (hg : g.Exact) (start : Token) :
    Traces i (functionLiteral g start.span) fun e ts _ => InOrder ([start] ++ ts) →
      (Part.expr e).Covers ([start] ++ ts) := by
  refine .bind (traces_functionRest hg _ start []) fun d us _ _ h => .pure fun horder => ?_
  rw [List.append_nil] at horder ⊢
  obtain ⟨hextent, hrows⟩ := h horder
  exact ⟨hextent, hrows.after [start]⟩

/-! ### Operands -/

theorem exact_of_covers {e : Expr} {ts : List Token} (hs : e.Spelled 0 (ts.map Token.word))
    (h : (Part.expr e).Covers ts) : (Part.expr e).Exact ts :=
  .whole rfl (.one hs) h.1 h.2

/-- An attribute covers the object, the dot and the name. -/
theorem traces_attributeRest {object : Expr} {us : List Token} (dot : Token)
    (hobject : InOrder us → (Part.expr object).Exact us) :
    Traces i (attributeRest object) fun e ts _ => InOrder (us ++ ([dot] ++ ts)) →
      (Part.expr e).Covers (us ++ ([dot] ++ ts)) := by
  refine .bind traces_ident fun n _ _ _ h => .pure fun horder => ?_
  obtain ⟨t, rfl, hspan⟩ := h
  rw [List.append_nil] at horder ⊢
  have hexact := hobject horder.left
  rw [Part.Covers, Part.span, Expr.span, hspan]
  exact ⟨hexact.extent.merge (.token t) horder, (Rows.one hexact).before _⟩

theorem traces_classPath (room : Nat) {type : Expr} {us : List Token}
    (hs : ClassSpelled 0 type (us.map Token.word))
    (htype : InOrder us → (Part.expr type).Exact us) :
    Traces i (classPath room type) fun e ts _ =>
      InOrder (us ++ ts) → (Part.expr e).Exact (us ++ ts) := by
  induction room generalizing i type us with
  | zero => exact .pure (by simpa using htype)
  | succ room ih =>
    refine .bind ((traces_skip .dot).and (finds_skip .dot).traces) fun found vs _ _ h => ?_
    cases found with
    | false =>
      obtain ⟨⟨rfl, rfl⟩, -⟩ := h
      exact .pure (by simpa using htype)
    | true =>
      obtain ⟨⟨dot, rfl⟩, text, hdot⟩ := h
      refine .bind ((traces_attributeRest dot htype).and finds_attributeRest.traces)
        fun e ws _ _ h => ?_
      obtain ⟨hcovers, n, s, rfl, hws⟩ := h
      have hattr : ClassSpelled 0 (.attr type n s) ((us ++ ([dot] ++ ws)).map Token.word) := by
        rw [List.map_append, List.map_append, hdot, hws]
        exact .attr hs
      refine (ih hattr fun horder => exact_of_covers hattr.spelled (hcovers horder)).weaken ?_
      intro e ts _ h
      simpa using h

theorem traces_classHead (hg : g.Exact) : Traces i (classHead g) fun e ts _ =>
    InOrder ts → (Part.expr e).Covers ts := by
  refine .bind traces_next fun token us j _ h => ?_
  split
  next hk =>
    obtain rfl := h (by simp [hk])
    exact .pure fun _ => ⟨.token token, .nil⟩
  next hk =>
    obtain rfl := h (by simp [hk])
    refine .bind (hg.expression 0 j) fun e us _ _ he => .bind (traces_symbol .rightParen)
      fun stop _ _ _ h => .pure fun horder => ?_
    subst h
    rw [List.append_nil] at horder ⊢
    exact ⟨(Extent.token token).merge (.token stop) horder,
      ((Rows.one (he horder.right.left)).before [stop]).after [token]⟩
  next => exact .fail

theorem traces_classExpr (hg : g.Exact) :
    Traces i (classExpr g) fun e ts _ => InOrder ts → (Part.expr e).Exact ts := by
  refine .bind ((traces_classHead hg).and (finds_classHead hg.sound).traces) fun head us _ _ h => ?_
  obtain ⟨hcovers, hs, -, -⟩ := h
  refine .bind traces_remaining fun _ _ _ _ h => ?_
  obtain ⟨rfl, rfl⟩ := h
  exact traces_classPath _ hs fun horder => exact_of_covers hs.spelled (hcovers horder)

/-- Between the first token and the closing symbol stand the parts. -/
theorem covers_delimited {start stop : Token} {es : List Expr} {us : List Token}
    (horder : InOrder ([start] ++ (us ++ [stop]))) (hes : InOrder us → Rows (exprs es) us) :
    Extent ([start] ++ (us ++ [stop])) (start.span.merge stop.span) ∧
      Rows (exprs es) ([start] ++ (us ++ [stop])) :=
  ⟨(Extent.token start).merge (.token stop) horder,
    ((hes horder.right.left).before [stop]).after [start]⟩

theorem traces_createRest (hg : g.Exact) (start : Token) :
    Traces i (createRest g start.span) fun e ts _ => InOrder ([start] ++ ts) →
      (Part.expr e).Covers ([start] ++ ts) := by
  refine .bind (traces_classExpr hg) fun type us _ _ htype => ?_
  refine .bind (traces_symbol .leftParen) fun t _ _ _ h => ?_
  subst h
  refine .bind (traces_delimited hg .rightParen) fun r _ _ _ h => .pure fun horder => ?_
  obtain ⟨vs, stop, hstop, rfl, hes⟩ := h
  rw [List.append_nil] at horder ⊢
  have hargs := ((hes horder.right.right.right.left).before [stop]).after [t]
  have hrows := ((Rows.one (htype horder.right.left)).append hargs).after [start]
  rw [Part.Covers, Part.span, Expr.span, hstop]
  refine ⟨?_, hrows⟩
  rw [← List.append_assoc us, ← List.append_assoc (us ++ [t])] at horder ⊢
  exact (Extent.token start).merge (.token stop) horder

theorem traces_operandCovers (hg : g.Exact) : Traces i (operand g) fun e ts _ =>
    InOrder ts → (Part.expr e).Covers ts := by
  refine .bind traces_next fun token us j _ h => ?_
  have hatom (a : Atom) (hk : token.kind ≠ .eof) : Traces j (pure (Expr.atom a token.span))
      fun e ts _ => InOrder (us ++ ts) → (Part.expr e).Covers (us ++ ts) := by
    obtain rfl := h hk
    exact .pure fun _ => ⟨.token token, .nil⟩
  dsimp only
  split
  next hk => exact hatom _ (by simp [hk])
  next hk => exact hatom _ (by simp [hk])
  next hk => exact hatom _ (by simp [hk])
  next hk => exact hatom _ (by simp [hk])
  next hk => exact hatom _ (by simp [hk])
  next hk => exact hatom _ (by simp [hk])
  next hk => exact hatom _ (by simp [hk])
  next hk =>
    obtain rfl := h (by simp [hk])
    refine .bind (traces_innerSequence hg) fun inner us _ _ hinner => ?_
    refine .bind (traces_symbol .rightParen) fun stop _ _ _ h => .pure fun horder => ?_
    subst h
    rw [List.append_nil] at horder ⊢
    exact covers_delimited horder fun hus => Rows.one (hinner hus)
  next hk =>
    obtain rfl := h (by simp [hk])
    refine .bind (traces_delimited hg .rightBracket) fun r _ _ _ h => .pure fun horder => ?_
    obtain ⟨us, stop, hstop, rfl, hes⟩ := h
    rw [List.append_nil] at horder ⊢
    rw [Part.Covers, Part.span, Expr.span, hstop]
    exact covers_delimited horder hes
  next hk =>
    obtain rfl := h (by simp [hk])
    refine .bind traces_remaining fun _ _ _ _ h => ?_
    obtain ⟨rfl, rfl⟩ := h
    refine .bind (traces_dictEntries hg _ []) fun r _ _ _ h => .pure fun horder => ?_
    obtain ⟨es, us, stop, hr, hstop, rfl, hes⟩ := h
    have hr : r.1.reverse = es := by simp [hr]
    rw [List.nil_append, List.append_nil] at horder ⊢
    rw [Part.Covers, Part.span, Expr.span, hstop, hr]
    exact covers_delimited horder hes
  next hk =>
    obtain rfl := h (by simp [hk])
    exact traces_functionLiteral hg token
  next hk =>
    obtain rfl := h (by simp [hk])
    exact traces_createRest hg token
  next =>
    split
    next op hop =>
      obtain rfl := h (by rintro heq; rw [heq] at hop; cases hop)
      refine .bind (hg.expression UnaryOp.power j) fun operand us _ _ he => .pure fun horder => ?_
      rw [List.append_nil] at horder ⊢
      have hexact := he horder.right
      have hextent := (Extent.token token).join hexact.extent horder
      exact ⟨hextent, (Rows.one hexact).after [token]⟩
    next => exact .fail

/-! ### Operators -/

variable {least : Nat} {lhs : Expr} {vs : List Token} {token : Token}

theorem traces_suffixRest (hg : g.Exact) (suffix : Suffix)
    (hlhs : InOrder vs → (Part.expr lhs).Exact vs) :
    Traces i (suffixRest g suffix lhs) fun e ts _ => InOrder (vs ++ ([token] ++ ts)) →
      (Part.expr e).Covers (vs ++ ([token] ++ ts)) := by
  cases suffix with
  | call =>
    refine .bind (traces_delimited hg .rightParen) fun r _ _ _ h => .pure fun horder => ?_
    obtain ⟨us, stop, hstop, rfl, hes⟩ := h
    rw [List.append_nil] at horder ⊢
    have hexact := hlhs horder.left
    have hargs := ((hes horder.right.right.left).before [stop]).after [token]
    rw [Part.Covers, Part.span, Expr.span, hstop]
    refine ⟨?_, (Rows.one hexact).append hargs⟩
    rw [← List.append_assoc [token]] at horder ⊢
    exact hexact.extent.merge (.token stop) horder
  | subscript =>
    refine .bind (hg.expression 0 i) fun index us _ _ hindex => .bind (traces_symbol .rightBracket)
      fun stop _ _ _ h => .pure fun horder => ?_
    subst h
    rw [List.append_nil] at horder ⊢
    have hexact := hlhs horder.left
    have hrows := ((Rows.one (hindex horder.right.right.left)).before [stop]).after [token]
    refine ⟨?_, (Rows.one hexact).append hrows⟩
    rw [← List.append_assoc [token]] at horder ⊢
    exact hexact.extent.merge (.token stop) horder
  | dot => exact traces_attributeRest token hlhs

/-- An operator between its operands. -/
theorem covers_between {rhs : Expr} {us : List Token} (horder : InOrder (vs ++ ([token] ++ us)))
    (hlhs : InOrder vs → (Part.expr lhs).Exact vs) (hrhs : InOrder us → (Part.expr rhs).Exact us) :
    Extent (vs ++ ([token] ++ us)) (lhs.span.merge rhs.span) ∧
      Rows [.expr lhs, .expr rhs] (vs ++ ([token] ++ us)) := by
  have hleft := hlhs horder.left
  have hright := hrhs horder.right.right
  exact ⟨hleft.extent.merge hright.extent horder,
    (Rows.one hleft).append ((Rows.one hright).after [token])⟩

theorem traces_extensionCovers (hg : g.Exact) {power : Nat} {rest : Parser Expr}
    (hlhs : InOrder vs → (Part.expr lhs).Exact vs)
    (h : extension? g lhs token = some (power, rest)) :
    Traces i rest fun e ts _ => InOrder (vs ++ ([token] ++ ts)) →
      (Part.expr e).Covers (vs ++ ([token] ++ ts)) := by
  obtain ⟨suffix, -, -, rfl⟩ | ⟨op, -, -, rfl⟩ | ⟨op, -, -, rfl⟩ | ⟨op, -, -, rfl⟩ :=
    extension?_cases h
  · exact traces_suffixRest hg suffix hlhs
  · refine .bind (hg.expression op.power.2 i) fun rhs us _ _ hrhs => .pure fun horder => ?_
    rw [List.append_nil] at horder ⊢
    exact covers_between horder hlhs hrhs
  · refine .bind (hg.expression op.power.2 i) fun rhs us _ _ hrhs => .pure fun horder => ?_
    rw [List.append_nil] at horder ⊢
    exact covers_between horder hlhs hrhs
  · split
    next => exact .fail
    next target htarget =>
      refine .bind (hg.expression AssignOp.power.2 i) fun rhs us _ _ hrhs => .pure fun horder => ?_
      rw [List.append_nil] at horder ⊢
      rw [Part.Covers, Part.parts, toExpr_of_target? htarget]
      exact covers_between horder hlhs hrhs

/-- What comes before an operator becomes part of what comes after it. -/
theorem traces_extend (hg : g.Exact) (room : Nat) (hl : Placed least lhs (vs.map Token.word) i)
    (hlhs : InOrder vs → (Part.expr lhs).Exact vs) :
    Traces i (extend g least room lhs) fun e ts _ =>
      InOrder (vs ++ ts) → (Part.expr e).Exact (vs ++ ts) := by
  induction room generalizing i lhs vs with
  | zero => exact .pure (by simpa using hlhs)
  | succ room ih =>
    refine .bind traces_peek fun token _ _ _ h => ?_
    obtain ⟨hnext, rfl, rfl⟩ := h
    split
    next => exact .pure (by simpa using hlhs)
    next power rest hsome =>
      split
      next => exact .pure (by simpa using hlhs)
      next hge =>
        have hpower := map_extension? g lhs token
        have hne : token.kind ≠ .eof := by
          intro heof
          rw [hsome, heof] at hpower
          cases hpower
        refine .bind (traces_next.and (finds_peeked hnext hne).traces) fun t us j _ h => ?_
        obtain ⟨hus, rfl, -⟩ := h
        obtain rfl := hus hne
        have hplaced := finds_extension (j := j) hg.sound hl hnext hsome (Nat.le_of_not_lt hge)
        refine .bind (hplaced.traces.and (traces_extensionCovers hg hlhs hsome))
          fun e us _ _ h => ?_
        obtain ⟨hplaced, hcovers⟩ := h
        have hmap : (vs ++ ([t] ++ us)).map Token.word =
            vs.map Token.word ++ t.word :: us.map Token.word := by simp
        rw [← hmap] at hplaced
        refine (ih hplaced fun horder => exact_of_covers hplaced.spelled (hcovers horder)).weaken ?_
        intro e ts _ h
        simpa using h

theorem traces_expressionFrom (hg : g.Exact) (hl : Placed least lhs (vs.map Token.word) i)
    (hlhs : InOrder vs → (Part.expr lhs).Exact vs) :
    Traces i (expressionFrom g least lhs) fun e ts _ =>
      InOrder (vs ++ ts) → (Part.expr e).Exact (vs ++ ts) := by
  refine .bind traces_remaining fun _ _ _ _ h => ?_
  obtain ⟨rfl, rfl⟩ := h
  exact traces_extend hg _ hl hlhs

theorem traces_expressionRule (hg : g.Exact) (least : Nat) :
    Traces i (expressionRule g least) fun e ts _ => InOrder ts → (Part.expr e).Exact ts := by
  refine .bind ((finds_operand hg.sound least).traces.and (traces_operandCovers hg))
    fun lhs us _ _ h => ?_
  exact traces_expressionFrom hg h.1 fun horder => exact_of_covers h.1.spelled (h.2 horder)

end Grammar
end Rill.Syntax
