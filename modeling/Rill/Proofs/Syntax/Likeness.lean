import Mathlib.Data.List.Forall2
import Rill.Proofs.Mirror
import Rill.Proofs.Syntax.Bare

/-! Readers on two inputs that differ only in the places of their tokens. -/
namespace Rill

open Text (Span)

/-- The same token at two places that `P` relates. -/
inductive Token.Like (P : Span → Span → Prop) : Token → Token → Prop
  | mk {kind text s t} : P s t → Token.Like P ⟨kind, text, s⟩ ⟨kind, text, t⟩

/-- Two pieces that are the same token. -/
inductive Token.Piece.Like (P : Span → Span → Prop) : Token.Piece → Token.Piece → Prop
  | ok {t u} : Token.Like P t u → Token.Piece.Like P (.ok t) (.ok u)

namespace Syntax

/-- The same tokens one after another. -/
structure Input.Like (P : Span → Span → Prop) (i j : Input) : Prop where
  rest : List.Forall₂ (Token.Piece.Like P) i.rest j.rest
  finish : Token.Like P i.finish j.finish

/-- The same fault at related places. -/
def Error.Like (P : Span → Span → Prop) (e f : Error) : Prop :=
  e.fault = f.fault ∧ P e.span f.span

namespace Parser

variable {α β : Type} {P : Span → Span → Prop}

/-- On like inputs, both readers succeed with related results or fail alike. -/
abbrev Alike (P : Span → Span → Prop) (R : α → β → Prop) (p : Parser α) (q : Parser β) : Prop :=
  Mirrors (Input.Like P) (Error.Like P) R p q

theorem alike_remaining : Alike P Eq remaining remaining := by
  intro i j hij
  exact .ok hij.rest.length_eq hij

theorem alike_fail {R : α → β → Prop} (fault : Fault) {s t : Span} (h : P s t) :
    Alike P R (fail fault s) (fail fault t) :=
  .throw ⟨rfl, h⟩

theorem alike_peek : Alike P (Token.Like P) peek peek := by
  rintro ⟨rest, finish⟩ ⟨rest', finish'⟩ hij
  have hrest : List.Forall₂ (Token.Piece.Like P) rest rest' := hij.rest
  cases hrest with
  | nil => exact .ok hij.finish hij
  | cons hpiece hrest =>
    cases hpiece with
    | ok htoken => exact .ok htoken hij

theorem alike_next : Alike P (Token.Like P) next next := by
  apply Mirrors.bind alike_peek
  intro t u htu i j hij
  exact .ok htu ⟨List.forall₂_drop 1 hij.rest, hij.finish⟩

theorem alike_expect (kind : Token.Kind) : Alike P (Token.Like P) (expect kind) (expect kind) := by
  apply Mirrors.bind alike_next
  rintro _ _ ⟨hspan⟩
  dsimp only
  split
  · exact .pure ⟨hspan⟩
  · exact alike_fail _ hspan

theorem alike_eat? (kind : Token.Kind) :
    Alike P (Option.Rel (Token.Like P)) (eat? kind) (eat? kind) := by
  apply Mirrors.bind alike_peek
  rintro _ _ ⟨hspan⟩
  dsimp only
  split
  · apply Mirrors.bind alike_next
    intro t u htu
    exact .pure (.some htu)
  · exact .pure .none

theorem alike_check (kind : Token.Kind) : Alike P Eq (check kind) (check kind) := by
  apply Mirrors.bind alike_peek
  rintro _ _ ⟨-⟩
  exact .pure rfl

theorem alike_symbol (s : Symbol) : Alike P (Token.Like P) (symbol s) (symbol s) := alike_expect _

theorem alike_keyword (k : Keyword) : Alike P (Token.Like P) (keyword k) (keyword k) :=
  alike_expect _

theorem alike_skip (s : Symbol) : Alike P Eq (skip s) (skip s) := by
  apply Mirrors.bind (alike_eat? _)
  intro found found' hfound
  cases hfound <;> exact .pure rfl

theorem alike_skipSemicolons (room : Nat) :
    Alike P Eq (skipSemicolons room) (skipSemicolons room) := by
  induction room with
  | zero => exact .pure rfl
  | succ room ih =>
    apply Mirrors.bind (alike_skip _)
    rintro found _ rfl
    cases found with
    | true => exact ih
    | false => exact .pure rfl

end Parser

namespace Grammar

open Rill.Syntax.Parser

variable {α β : Type} {P : Span → Span → Prop} {g : Grammar}

/-- Readers of expressions that are the same up to places. -/
abbrev AlikeExpr (P : Span → Span → Prop) (p q : Parser Expr) : Prop :=
  Alike P (fun e f => e.bare = f.bare) p q

/-- Readers of statements that are the same up to places. -/
abbrev AlikeStmt (P : Span → Span → Prop) (p q : Parser Stmt) : Prop :=
  Alike P (fun s t => s.bare = t.bare) p q

/-- Whatever the readers of the grammar do on an input, they do alike on every like input. -/
structure Even (P : Span → Span → Prop) (g : Grammar) : Prop where
  expression : ∀ least, AlikeExpr P (g.expression least) (g.expression least)
  statement : AlikeStmt P g.statement g.statement
  conditional : AlikeStmt P g.conditional g.conditional

theorem alike_noExpression {R : α → β → Prop} : Alike P R noExpression noExpression := by
  apply Mirrors.bind alike_next
  rintro _ _ ⟨hspan⟩
  exact alike_fail _ hspan

theorem alike_ident : Alike P (fun n m => n.bare = m.bare) ident ident := by
  apply Mirrors.bind (alike_expect _)
  rintro _ _ ⟨-⟩
  exact .pure rfl

/-! ### Lists of expressions -/

theorem bareAll_eq_map (es : List Expr) : bareAll es = es.map Expr.bare := by
  induction es with
  | nil => rfl
  | cons e es ih => rw [bareAll, ih, List.map_cons]

theorem bareEntries_eq_map (es : List (Expr × Expr)) :
    bareEntries es = es.map fun e => (e.1.bare, e.2.bare) := by
  induction es with
  | nil => rfl
  | cons e es ih => rw [bareEntries, ih, List.map_cons]

theorem bareBody_eq_map (ss : List Stmt) : bareBody ss = ss.map Stmt.bare := by
  induction ss with
  | nil => rfl
  | cons s ss ih => rw [bareBody, ih, List.map_cons]

theorem bareAll_reverse {es fs : List Expr} (h : bareAll es = bareAll fs) :
    bareAll es.reverse = bareAll fs.reverse := by
  rw [bareAll_eq_map, bareAll_eq_map] at h ⊢
  rw [List.map_reverse, List.map_reverse, h]

theorem bareEntries_reverse {es fs : List (Expr × Expr)} (h : bareEntries es = bareEntries fs) :
    bareEntries es.reverse = bareEntries fs.reverse := by
  rw [bareEntries_eq_map, bareEntries_eq_map] at h ⊢
  rw [List.map_reverse, List.map_reverse, h]

theorem bareBody_reverse {ss ts : List Stmt} (h : bareBody ss = bareBody ts) :
    bareBody ss.reverse = bareBody ts.reverse := by
  rw [bareBody_eq_map, bareBody_eq_map] at h ⊢
  rw [List.map_reverse, List.map_reverse, h]

theorem alike_sequenceParts (hg : g.Even P) (room : Nat) {parts parts' : List Expr}
    (h : bareAll parts = bareAll parts') :
    Alike P (fun es fs => bareAll es = bareAll fs) (sequenceParts g room parts)
      (sequenceParts g room parts') := by
  induction room generalizing parts parts' with
  | zero => exact .pure h
  | succ room ih =>
    apply Mirrors.bind (alike_skip _)
    rintro found _ rfl
    cases found with
    | true =>
      apply Mirrors.bind (hg.expression 0)
      intro e f hef
      exact ih (by rw [bareAll, bareAll, hef, h])
    | false => exact .pure h

theorem alike_sequenceRest (hg : g.Even P) {first first' : Expr} (h : first.bare = first'.bare) :
    AlikeExpr P (sequenceRest g first) (sequenceRest g first') := by
  apply Mirrors.bind alike_remaining
  rintro room _ rfl
  apply Mirrors.bind (alike_sequenceParts hg room rfl)
  intro parts parts' hparts
  have hreverse := bareAll_reverse hparts
  cases parts with
  | nil =>
    cases parts' with
    | nil => exact .pure h
    | cons => cases hparts
  | cons last middle =>
    cases parts' with
    | nil => cases hparts
    | cons last' middle' =>
      apply Mirrors.pure
      rw [Expr.bare, Expr.bare, bareAll, bareAll, h, hreverse]

theorem alike_innerSequence (hg : g.Even P) : AlikeExpr P (innerSequence g) (innerSequence g) := by
  apply Mirrors.bind (hg.expression 0)
  intro e f hef
  exact alike_sequenceRest hg hef

theorem alike_delimitedParts (hg : g.Even P) (closing : Symbol) (room : Nat)
    {parts parts' : List Expr} (h : bareAll parts = bareAll parts') :
    Alike P (fun p q => bareAll p.1 = bareAll q.1) (delimitedParts g closing room parts)
      (delimitedParts g closing room parts') := by
  induction room generalizing parts parts' with
  | zero => exact alike_noExpression
  | succ room ih =>
    apply Mirrors.bind (alike_eat? _)
    intro stop stop' hstop
    cases hstop with
    | some => exact .pure h
    | none =>
      apply Mirrors.bind (hg.expression 0)
      intro e f hef
      have hcons : bareAll (e :: parts) = bareAll (f :: parts') := by rw [bareAll, bareAll, hef, h]
      apply Mirrors.bind (alike_skip _)
      rintro found _ rfl
      cases found with
      | true => exact ih hcons
      | false =>
        apply Mirrors.bind (alike_symbol _)
        intro stop stop' _
        exact .pure hcons

theorem alike_delimited (hg : g.Even P) (closing : Symbol) :
    Alike P (fun p q => bareAll p.1 = bareAll q.1) (delimited g closing) (delimited g closing) := by
  apply Mirrors.bind alike_remaining
  rintro room _ rfl
  apply Mirrors.bind (alike_delimitedParts hg closing room rfl)
  intro p q hpq
  exact .pure (bareAll_reverse hpq)

theorem alike_dictEntries (hg : g.Even P) (room : Nat) {entries entries' : List (Expr × Expr)}
    (h : bareEntries entries = bareEntries entries') :
    Alike P (fun p q => bareEntries p.1 = bareEntries q.1) (dictEntries g room entries)
      (dictEntries g room entries') := by
  induction room generalizing entries entries' with
  | zero => exact alike_noExpression
  | succ room ih =>
    apply Mirrors.bind (alike_eat? _)
    intro stop stop' hstop
    cases hstop with
    | some => exact .pure h
    | none =>
      apply Mirrors.bind (hg.expression 0)
      intro k k' hk
      apply Mirrors.bind (alike_symbol _)
      intro _ _ _
      apply Mirrors.bind (hg.expression 0)
      intro v v' hv
      have hcons : bareEntries ((k, v) :: entries) = bareEntries ((k', v') :: entries') := by
        rw [bareEntries, bareEntries, hk, hv, h]
      apply Mirrors.bind (alike_skip _)
      rintro found _ rfl
      cases found with
      | true => exact ih hcons
      | false =>
        apply Mirrors.bind (alike_symbol _)
        intro stop stop' _
        exact .pure hcons

theorem alike_dictLiteral (hg : g.Even P) (start start' : Span) :
    AlikeExpr P (dictLiteral g start) (dictLiteral g start') := by
  apply Mirrors.bind alike_remaining
  rintro room _ rfl
  apply Mirrors.bind (alike_dictEntries hg room rfl)
  intro p q hpq
  apply Mirrors.pure
  rw [Expr.bare, Expr.bare, bareEntries_reverse hpq]

/-! ### Blocks and functions -/

theorem alike_unexpected {R : α → β → Prop} (kind : Token.Kind) :
    Alike P R (next >>= fun token => fail (.unexpectedToken token.kind kind) token.span)
      (next >>= fun token => fail (.unexpectedToken token.kind kind) token.span) := by
  apply Mirrors.bind alike_next
  rintro _ _ ⟨hspan⟩
  exact alike_fail _ hspan

theorem alike_blockStatements (hg : g.Even P) (room : Nat) {body body' : List Stmt}
    (h : bareBody body = bareBody body') :
    Alike P (fun p q => bareBody p.1 = bareBody q.1) (blockStatements g room body)
      (blockStatements g room body') := by
  induction room generalizing body body' with
  | zero => exact alike_unexpected _
  | succ room ih =>
    apply Mirrors.bind alike_remaining
    rintro rest _ rfl
    apply Mirrors.bind (alike_skipSemicolons _)
    rintro _ _ rfl
    apply Mirrors.bind (alike_eat? _)
    intro stop stop' hstop
    cases hstop with
    | some => exact .pure h
    | none =>
      apply Mirrors.bind (alike_check _)
      rintro atEnd _ rfl
      cases atEnd with
      | true => exact alike_unexpected _
      | false =>
        apply Mirrors.bind hg.statement
        intro s t hst
        exact ih (by rw [bareBody, bareBody, hst, h])

theorem alike_block (hg : g.Even P) :
    Alike P (fun p q => bareBody p.1 = bareBody q.1) (block g) (block g) := by
  apply Mirrors.bind (alike_symbol _)
  intro start start' _
  apply Mirrors.bind alike_remaining
  rintro room _ rfl
  apply Mirrors.bind (alike_blockStatements hg room rfl)
  intro p q hpq
  exact .pure (bareBody_reverse hpq)

theorem alike_parameterNames (room : Nat) {names names' : List Ident}
    (h : names.map Ident.bare = names'.map Ident.bare) :
    Alike P (fun ns ms => ns.map Ident.bare = ms.map Ident.bare) (parameterNames room names)
      (parameterNames room names') := by
  induction room generalizing names names' with
  | zero => exact alike_unexpected _
  | succ room ih =>
    apply Mirrors.bind alike_ident
    intro n m hnm
    have hcons : (n :: names).map Ident.bare = (m :: names').map Ident.bare := by
      rw [List.map_cons, List.map_cons, hnm, h]
    apply Mirrors.bind (alike_skip _)
    rintro found _ rfl
    cases found with
    | true => exact ih hcons
    | false => exact .pure hcons

theorem alike_parameterList :
    Alike P (fun ns ms => ns.map Ident.bare = ms.map Ident.bare) parameterList parameterList := by
  apply Mirrors.bind (alike_skip _)
  rintro found _ rfl
  cases found with
  | true => exact .pure rfl
  | false =>
    apply Mirrors.bind alike_remaining
    rintro room _ rfl
    apply Mirrors.bind (alike_parameterNames room rfl)
    intro ns ms hnames
    apply Mirrors.bind (alike_symbol _)
    intro _ _ _
    apply Mirrors.pure
    rw [List.map_reverse, List.map_reverse, hnames]

theorem alike_functionRest (hg : g.Even P) {name name' : Ident} (h : name.bare = name'.bare)
    (start start' : Span) : Alike P (fun d d' => d.bare = d'.bare) (functionRest g name start)
      (functionRest g name' start') := by
  apply Mirrors.bind (alike_symbol _)
  intro _ _ _
  apply Mirrors.bind alike_parameterList
  intro ns ms hnames
  apply Mirrors.bind (alike_block hg)
  intro p q hpq
  apply Mirrors.pure
  rw [FunctionDecl.bare, FunctionDecl.bare, h, hnames, hpq]

theorem alike_functionLiteral (hg : g.Even P) (start start' : Span) :
    AlikeExpr P (functionLiteral g start) (functionLiteral g start') := by
  have hname : Ident.bare ⟨"<anonymous>", start⟩ = Ident.bare ⟨"<anonymous>", start'⟩ := rfl
  apply Mirrors.bind (alike_functionRest hg hname start start')
  intro d d' hd
  apply Mirrors.pure
  rw [Expr.bare, Expr.bare, hd]

end Grammar
end Syntax
end Rill
