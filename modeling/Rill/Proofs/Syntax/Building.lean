import Rill.Proofs.Syntax.Soundness
import Rill.Proofs.Syntax.Tables
import Rill.Syntax.Building

/-! The table that is built as an expression is read is the table of the expression. -/
namespace Rill.Syntax

open Rill.Syntax.Parser
open Text (Span)

/-! ### What the last node of an expression tells -/

theorem Arena.target?_last_push (a : Arena) (node : Node) (span : Span) :
    (a.push node span).node? (a.push node span).last >>= Node.target? = node.target? := by
  rw [Arena.node?_last_push]
  rfl

namespace Expr

/-- It has the place of the expression. -/
theorem span?_place (a : Arena) [a.Paired] (e : Expr) :
    (e.place a).span? (e.place a).last = some e.span := by
  cases e with
  | function decl => exact Arena.span?_last_push a (.function a.functions.size) decl.span
  | _ => exact Arena.span?_last_push _ _ _

theorem last_lt (a : Arena) (e : Expr) : (e.place a).last < (e.place a).nodes.size := by
  have hpos : 0 < (e.place a).nodes.size := by
    cases e <;> simp [place, Arena.push, Arena.pushFunction]
  exact Nat.sub_lt hpos Nat.zero_lt_one

/-- It is no target if the expression is none. -/
theorem target?_place_of_none {a : Arena} {e : Expr} (h : e.target? = none) :
    (e.place a).node? (e.place a).last >>= Node.target? = none := by
  cases e with
  | atom x span =>
    cases x with
    | var name => cases h
    | _ => exact Arena.target?_last_push _ _ _
  | attr object name span => cases h
  | subscript object index span => cases h
  | function decl => exact Arena.target?_last_push a (.function a.functions.size) decl.span
  | _ => exact Arena.target?_last_push _ _ _

/-- It is the target that the expression is placed as. -/
theorem target?_place_of_some {a : Arena} {e : Expr} {t : Target} (h : e.target? = some t) :
    ∃ target, (e.place a).node? (e.place a).last >>= Node.target? = some target ∧
      t.place a = (e.place a, target) := by
  cases e with
  | atom x span =>
    cases x with
    | var name =>
      cases h
      exact ⟨_, Arena.target?_last_push _ _ _, rfl⟩
    | _ => cases h
  | attr object name span =>
    cases h
    exact ⟨_, Arena.target?_last_push _ _ _, rfl⟩
  | subscript object index span =>
    cases h
    exact ⟨_, Arena.target?_last_push _ _ _, rfl⟩
  | _ => cases h

end Expr

namespace Builder

variable {α β γ δ : Type} {a : Arena}

/-- With the table `a`, the builder does what the reader does. For what that reads, `f` says what the
builder gives and which table it leaves. -/
def Builds (a : Arena) (x : Builder β) (y : Parser α) (f : α → β × Arena) : Prop :=
  (x.run a).run = do return some (f (← y))

/-- An expression, as it is given by a builder. -/
def placed (a : Arena) (e : Expr) : Nat × Arena := ((e.place a).last, e.place a)

namespace Builds

variable {x : Builder β} {y : Parser α} {f : α → β × Arena} {k : β → Builder δ} {l : α → Parser γ}
  {h : γ → δ × Arena}

theorem bind (hx : Builds a x y f) (hk : ∀ u, Builds (f u).2 (k (f u).1) (l u) h) :
    Builds a (x >>= k) (y >>= l) h := by
  have hrun : ((x >>= k).run a).run = (x.run a).run >>= fun
      | some (v, b) => ((k v).run b).run
      | none => Pure.pure none := by
    rw [StateT.run_bind, OptionT.run_bind]
    refine bind_congr fun o => ?_
    cases o <;> rfl
  rw [Builds, hrun, hx]
  simp only [bind_assoc, pure_bind]
  exact bind_congr hk

theorem pure {u : α} {v : β} (hf : f u = (v, a)) : Builds a (Pure.pure v) (Pure.pure u) f := by
  rw [Builds, pure_bind, hf]
  rfl

theorem lift (p : Parser α) : Builds a (liftM p : Builder α) p fun u => (u, a) := by
  funext i
  change EStateM.bind (EStateM.bind p _) _ i = EStateM.bind p _ i
  unfold EStateM.bind
  cases p i <;> rfl

/-- What both read comes first. -/
theorem read {p : Parser α} {k : α → Builder δ} (hk : ∀ u, Builds a (k u) (l u) h) :
    Builds a (liftM p >>= k) (p >>= l) h :=
  (lift p).bind hk

theorem fail (fault : Fault) (span : Span) :
    Builds a (liftM (Parser.fail fault span : Parser β) : Builder β) (Parser.fail fault span) f :=
  rfl

theorem noExpression :
    Builds a (liftM (Grammar.noExpression : Parser β) : Builder β) Grammar.noExpression f := by
  refine (lift _).trans ?_
  simp only [Grammar.noExpression, bind_assoc]
  exact bind_congr fun token => rfl

theorem pushFunction {decl : FunctionDecl} {u : α} {f : α → Nat × Arena}
    (hf : f u = ((a.pushFunction decl).last, a.pushFunction decl)) :
    Builds a (pushFunction decl) (Pure.pure u) f := by
  rw [Builds, pure_bind, hf]
  rfl

theorem push {node : Node} {span : Span} {u : α} {f : α → Nat × Arena}
    (hf : f u = ((a.push node span).last, a.push node span)) :
    Builds a (push node span) (Pure.pure u) f := by
  rw [Builds, pure_bind, hf]
  rfl

/-- The place of an expression that stands in the table is found. -/
theorem spanOf {b : Arena} [b.Paired] {e : Expr} {k : Span → Builder β} (hb : (e.place b).Within a)
    (hk : Builds a (k e.span) y f) : Builds a (spanOf (e.place b).last >>= k) y f := by
  have hfound : (Builder.spanOf (e.place b).last).run a = Pure.pure (e.span, a) := by
    simp [Builder.spanOf, hb.span (e.span?_place b)]
  rw [Builds, StateT.run_bind, hfound, pure_bind]
  exact hk

theorem targetOf? {ref : Nat} {k : Option TargetNode → Builder β}
    (hk : Builds a (k (a.node? ref >>= Node.target?)) y f) :
    Builds a (targetOf? ref >>= k) y f :=
  hk

end Builds

/-! ### Lists of operands -/

/-- What is given one after another for some things, which are in reverse. -/
def stacked (place : Arena → α → β × Arena) (a : Arena) : List α → List β × Arena
  | [] => ([], a)
  | u :: us =>
    let (vs, b) := stacked place a us
    let (v, b) := place b u
    (v :: vs, b)

theorem placeAll_concat (a : Arena) (es : List Expr) (e : Expr) :
    placeAll a (es ++ [e]) = (e.place (placeAll a es).1,
      (placeAll a es).2 ++ [(e.place (placeAll a es).1).last]) := by
  induction es generalizing a with
  | nil => rfl
  | cons e' es ih =>
    rw [List.cons_append, placeAll, ih]
    rfl

theorem placeAll_reverse (a : Arena) (es : List Expr) :
    placeAll a es.reverse = ((stacked placed a es).2, (stacked placed a es).1.reverse) := by
  induction es with
  | nil => rfl
  | cons e es ih =>
    rw [List.reverse_cons, placeAll_concat, ih, stacked, List.reverse_cons]
    rfl

/-- An entry of a dict, as it is given by a builder. -/
def placedEntry (a : Arena) : Expr × Expr → (Nat × Nat) × Arena
  | (key, value) =>
    (((key.place a).last, (value.place (key.place a)).last), value.place (key.place a))

theorem placeEntries_concat (a : Arena) (es : List (Expr × Expr)) (e : Expr × Expr) :
    placeEntries a (es ++ [e]) = ((placedEntry (placeEntries a es).1 e).2,
      (placeEntries a es).2 ++ [(placedEntry (placeEntries a es).1 e).1]) := by
  induction es generalizing a with
  | nil => rfl
  | cons e' es ih =>
    rw [List.cons_append, placeEntries, ih]
    rfl

theorem placeEntries_reverse (a : Arena) (es : List (Expr × Expr)) :
    placeEntries a es.reverse =
      ((stacked placedEntry a es).2, (stacked placedEntry a es).1.reverse) := by
  induction es with
  | nil => rfl
  | cons e es ih =>
    rw [List.reverse_cons, placeEntries_concat, ih, stacked, List.reverse_cons]

/-! ### The rules -/

instance {e : Expr} [a.Paired] : (placed a e).2.Paired := inferInstanceAs (e.place a).Paired

instance {es : List Expr} [a.Paired] : (stacked placed a es).2.Paired := by
  induction es with
  | nil => assumption
  | cons e es ih => exact inferInstanceAs (e.place (stacked placed a es).2).Paired

instance {es : List (Expr × Expr)} [a.Paired] : (stacked placedEntry a es).2.Paired := by
  induction es with
  | nil => assumption
  | cons e es ih =>
    obtain ⟨key, value⟩ := e
    exact inferInstanceAs (value.place (key.place (stacked placedEntry a es).2)).Paired

/-- What nests is built as the grammar reads it, whatever table it comes into. -/
def Nests (inner : Nat → Builder Nat) (g : Grammar) : Prop :=
  ∀ least (a : Arena) [a.Paired], Builds a (inner least) (g.expression least) (placed a)

variable {g : Grammar} {inner : Nat → Builder Nat} [a.Paired]

theorem builds_sequenceParts (hg : Nests inner g) (room : Nat) (es : List Expr) :
    Builds (stacked placed a es).2 (sequenceParts inner room (stacked placed a es).1)
      (g.sequenceParts room es) (stacked placed a) := by
  induction room generalizing es with
  | zero => exact .pure rfl
  | succ room ih =>
    refine .read fun more => ?_
    split
    · exact (hg 0 _).bind fun e => ih (e :: es)
    · exact .pure rfl

theorem builds_sequenceRest (hg : Nests inner g) (first : Expr) :
    Builds (first.place a) (sequenceRest inner (first.place a).last) (g.sequenceRest first)
      (placed a) := by
  refine .read fun room => (builds_sequenceParts hg room []).bind fun es => ?_
  have hparts := placeAll_reverse (first.place a) es
  have hwithin := within_placeAll (first.place a) es.reverse
  rw [hparts] at hwithin
  cases es with
  | nil => exact .pure rfl
  | cons last middle =>
    refine .spanOf hwithin (.spanOf (.refl _) (.push ?_))
    rw [placed, Expr.place, placeAll, hparts]
    rfl

theorem builds_innerSequence (hg : Nests inner g) :
    Builds a (innerSequence inner) g.innerSequence (placed a) :=
  (hg 0 a).bind fun first => builds_sequenceRest hg first

theorem builds_delimitedParts (hg : Nests inner g) (closing : Symbol) (room : Nat)
    (es : List Expr) :
    Builds (stacked placed a es).2 (delimitedParts inner closing room (stacked placed a es).1)
      (g.delimitedParts closing room es)
      fun (es, stop) => (((stacked placed a es).1, stop), (stacked placed a es).2) := by
  induction room generalizing es with
  | zero => exact .noExpression
  | succ room ih =>
    refine .read fun stop => ?_
    cases stop with
    | some stop => exact .pure rfl
    | none =>
      refine (hg 0 _).bind fun e => .read fun more => ?_
      split
      · exact ih (e :: es)
      · exact .read fun stop => .pure rfl

theorem builds_delimited (hg : Nests inner g) (closing : Symbol) :
    Builds a (delimited inner closing) (g.delimited closing)
      fun (es, stop) => (((placeAll a es).2, stop), (placeAll a es).1) := by
  refine .read fun room => (builds_delimitedParts hg closing room []).bind fun (es, stop) => ?_
  refine .pure ?_
  dsimp only
  rw [placeAll_reverse]

theorem builds_dictEntries (hg : Nests inner g) (room : Nat) (es : List (Expr × Expr)) :
    Builds (stacked placedEntry a es).2 (dictEntries inner room (stacked placedEntry a es).1)
      (g.dictEntries room es)
      fun (es, stop) => (((stacked placedEntry a es).1, stop), (stacked placedEntry a es).2) := by
  induction room generalizing es with
  | zero => exact .noExpression
  | succ room ih =>
    refine .read fun stop => ?_
    cases stop with
    | some stop => exact .pure rfl
    | none =>
      refine (hg 0 _).bind fun key => .read fun _ => (hg 0 _).bind fun value => .read fun more => ?_
      split
      · exact ih ((key, value) :: es)
      · exact .read fun stop => .pure rfl

theorem builds_dictLiteral (hg : Nests inner g) (start : Span) :
    Builds a (dictLiteral inner start) (g.dictLiteral start) (placed a) := by
  refine .read fun room => (builds_dictEntries hg room []).bind fun (es, stop) => .push ?_
  rw [placed, Expr.place, placeEntries_reverse]

theorem builds_functionLiteral {b : Arena} (g : Grammar) (start : Span) :
    Builds b (functionLiteral g start) (g.functionLiteral start) (placed b) :=
  .read fun _ => .pushFunction rfl

theorem builds_attributeRest (object : Expr) :
    Builds (object.place a) (attributeRest (object.place a).last) (Grammar.attributeRest object)
      (placed a) :=
  .spanOf (.refl _) (.read fun _ => .push rfl)

theorem builds_classPath (room : Nat) (type : Expr) :
    Builds (type.place a) (classPath room (type.place a).last) (Grammar.classPath room type)
      (placed a) := by
  induction room generalizing type with
  | zero => exact .pure rfl
  | succ room ih =>
    refine .read fun more => ?_
    split
    · exact (builds_attributeRest type).bind fun type => ih type
    · exact .pure rfl

theorem builds_classHead (hg : Nests inner g) :
    Builds a (classHead inner) g.classHead (placed a) := by
  refine .read fun token => ?_
  obtain ⟨kind, text, span⟩ := token
  cases kind with
  | ident => exact .push rfl
  | symbol s =>
    cases s with
    | leftParen => exact (hg 0 a).bind fun e => .read fun stop => .push rfl
    | _ => exact .fail _ _
  | _ => exact .fail _ _

theorem builds_classExpr (hg : Nests inner g) :
    Builds a (classExpr inner) g.classExpr (placed a) :=
  (builds_classHead hg).bind fun head => .read fun room => builds_classPath room head

theorem builds_createRest (hg : Nests inner g) (start : Span) :
    Builds a (createRest inner start) (g.createRest start) (placed a) :=
  (builds_classExpr hg).bind fun _ => .read fun _ =>
    (builds_delimited hg .rightParen).bind fun (_, _) => .push rfl

theorem builds_prefixRest (hg : Nests inner g) (kind : Token.Kind) (start : Span) :
    Builds a (prefixRest inner kind start)
      (match UnaryOp.ofKind? kind with
        | some op => do
          let operand ← g.expression UnaryOp.power
          return .unary op operand (start.merge operand.span)
        | none => Parser.fail (.nonExpression kind) start) (placed a) := by
  unfold prefixRest
  cases UnaryOp.ofKind? kind with
  | some op =>
    refine (hg _ a).bind fun e => ?_
    exact .spanOf (.refl (e.place a)) (.push rfl)
  | none => exact .fail _ _

theorem builds_operand (hg : Nests inner g) :
    Builds a (operand inner g) g.operand (placed a) := by
  refine .read fun token => ?_
  obtain ⟨kind, text, span⟩ := token
  cases kind with
  | int | float | string | ident => exact .push rfl
  | keyword word =>
    cases word with
    | trueWord | falseWord | nullWord => exact .push rfl
    | funWord => exact builds_functionLiteral g _
    | newWord => exact builds_createRest hg _
    | _ => exact builds_prefixRest hg _ _
  | symbol s =>
    cases s with
    | leftParen =>
      exact (builds_innerSequence hg).bind fun e => .read fun stop => .push rfl
    | leftBracket => exact (builds_delimited hg _).bind fun (es, stop) => .push rfl
    | leftBrace => exact builds_dictLiteral hg _
    | _ => exact builds_prefixRest hg _ _
  | _ => exact builds_prefixRest hg _ _

theorem builds_suffixRest (hg : Nests inner g) (suffix : Suffix) (object : Expr) :
    Builds (object.place a) (suffixRest inner suffix (object.place a).last)
      (g.suffixRest suffix object) (placed a) := by
  cases suffix with
  | call =>
    exact .spanOf (.refl _) ((builds_delimited hg _).bind fun (arguments, stop) => .push rfl)
  | subscript =>
    exact .spanOf (.refl _) ((hg 0 _).bind fun index => .read fun stop => .push rfl)
  | dot => exact builds_attributeRest object

/-- The right operand is placed after the left one, which stays where it is. -/
theorem builds_operands (hg : Nests inner g) (lhs : Expr) (power : Nat) {node : Nat → Node}
    {whole : Expr → Span → Expr}
    (hwhole : ∀ rhs span, (whole rhs span).place a =
      (rhs.place (lhs.place a)).push (node (rhs.place (lhs.place a)).last) span) :
    Builds (lhs.place a) (operands inner (lhs.place a).last power node)
      (do
        let rhs ← g.expression power
        return whole rhs (lhs.span.merge rhs.span)) (placed a) := by
  refine (hg power _).bind fun rhs => ?_
  refine .spanOf (rhs.within_place _) (.spanOf (.refl _) (.push ?_))
  rw [placed, hwhole]
  rfl

/-- The node of the left operand is that of a target if the operand is one. -/
theorem builds_assignment (hg : Nests inner g) (lhs : Expr) (op : AssignOp) (token : Token) :
    Builds (lhs.place a)
      (do
        match ← targetOf? (lhs.place a).last with
        | none => Parser.fail .invalidAssignmentTarget token.span
        | some target => operands inner (lhs.place a).last AssignOp.power.2 (.assign op target))
      (match lhs.target? with
        | none => Parser.fail .invalidAssignmentTarget token.span
        | some target => do
          let rhs ← g.expression AssignOp.power.2
          return .assign op target rhs (lhs.span.merge rhs.span)) (placed a) := by
  refine .targetOf? ?_
  cases htarget : lhs.target? with
  | none =>
    rw [Expr.target?_place_of_none htarget]
    exact .fail _ _
  | some t =>
    obtain ⟨target, hfound, hplace⟩ := Expr.target?_place_of_some (a := a) htarget
    rw [hfound]
    exact builds_operands hg lhs _ fun rhs span => by rw [Expr.place, hplace]

/-- The same operators extend an operand, as the grammar reads them. -/
theorem builds_extension? (hg : Nests inner g) (lhs : Expr) (token : Token) :
    Option.Rel (fun p q => p.1 = q.1 ∧ Builds (lhs.place a) p.2 q.2 (placed a))
      (extension? inner (lhs.place a).last token) (g.extension? lhs token) := by
  unfold extension? Grammar.extension?
  cases Suffix.ofKind? token.kind with
  | some suffix => exact .some ⟨rfl, builds_suffixRest hg suffix lhs⟩
  | none =>
  cases BinaryOp.ofKind? token.kind with
  | some op => exact .some ⟨rfl, builds_operands hg lhs _ fun _ _ => rfl⟩
  | none =>
  cases LogicOp.ofKind? token.kind with
  | some op => exact .some ⟨rfl, builds_operands hg lhs _ fun _ _ => rfl⟩
  | none =>
  cases AssignOp.ofKind? token.kind with
  | some op => exact .some ⟨rfl, builds_assignment hg lhs op token⟩
  | none => exact .none

theorem builds_extend (hg : Nests inner g) (least room : Nat) (lhs : Expr) :
    Builds (lhs.place a) (extend inner least room (lhs.place a).last) (g.extend least room lhs)
      (placed a) := by
  induction room generalizing lhs with
  | zero => exact .pure rfl
  | succ room ih =>
    refine .read fun token => ?_
    have hrel := builds_extension? (a := a) hg lhs token
    generalize extension? inner (lhs.place a).last token = built at hrel
    generalize g.extension? lhs token = found at hrel
    cases hrel with
    | none => exact .pure rfl
    | @some p q h =>
      obtain ⟨power, rest⟩ := p
      obtain ⟨power', rest'⟩ := q
      obtain ⟨rfl, hrest⟩ := h
      dsimp only
      split
      · exact .pure rfl
      · exact .read fun _ => hrest.bind fun lhs => ih lhs

theorem builds_expressionFrom (hg : Nests inner g) (least : Nat) (lhs : Expr) :
    Builds (lhs.place a) (expressionFrom inner least (lhs.place a).last)
      (g.expressionFrom least lhs) (placed a) :=
  .read fun room => builds_extend hg least room lhs

theorem builds_expressionRule (hg : Nests inner g) (least : Nat) :
    Builds a (expressionRule inner g least) (g.expressionRule least) (placed a) :=
  (builds_operand hg).bind fun lhs => builds_expressionFrom hg least lhs

theorem builds_sequenceRule (hg : Nests inner g) :
    Builds a (sequenceRule inner g) g.sequenceRule (placed a) :=
  (builds_expressionRule hg 0).bind fun first => builds_sequenceRest hg first

theorem builds_literalRule (hg : Nests inner g) (start : Span) :
    Builds a (literalRule inner g start) (g.literalRule start) (placed a) :=
  (builds_functionLiteral g start).bind fun lhs =>
    (builds_expressionFrom hg 0 lhs).bind fun first => builds_sequenceRest hg first

theorem nests_ofDepth (depth : Nat) : Nests (ofDepth depth) (Grammar.ofDepth depth) := by
  induction depth with
  | zero => exact fun least a => .noExpression
  | succ depth ih => exact fun least a => builds_expressionRule ih least

theorem builds_expression : Builds a expression Parser.expression (placed a) :=
  .read fun depth => nests_ofDepth depth 0 a

theorem builds_sequence : Builds a sequence Parser.sequence (placed a) :=
  builds_expression.bind fun first => .read fun depth =>
    builds_sequenceRest (nests_ofDepth depth) first

/-! ### Tables of their own -/

/-- Reads an expression and gives its table, of which the last node is the root. -/
def tabled (y : Parser Expr) : Parser (Option (Nat × Arena)) := do
  let e ← y
  return some (e.arena.last, e.arena)

theorem Builds.table {x : Builder Nat} {y : Parser Expr} (h : Builds .empty x y (placed .empty)) :
    table x = tabled y := by
  rw [Builder.table, h]
  simp only [bind_assoc, pure_bind]
  refine bind_congr fun e => ?_
  rw [placed, if_pos (e.last_lt .empty)]
  rfl

/-- The builders of expressions with tables of their own, and what each of them reads. -/
inductive Follows : Builder Nat → Parser Expr → Prop
  | inner (depth least : Nat) :
      Follows (ofDepth depth least) ((Grammar.ofDepth depth).expression least)
  /-- A sequence inside a statement. -/
  | innerSequence (depth : Nat) :
      Follows (innerSequence (ofDepth depth)) (Grammar.ofDepth depth).innerSequence
  /-- A statement that is an expression. -/
  | sequenceRule (depth : Nat) :
      Follows (sequenceRule (ofDepth depth) (Grammar.ofDepth depth))
        (Grammar.ofDepth depth).sequenceRule
  /-- A statement that is an expression and starts with a function literal. -/
  | literalRule (depth : Nat) :
      Follows
        (do
          let start ← keyword .funWord
          literalRule (ofDepth depth) (Grammar.ofDepth depth) start.span)
        (do
          let start ← keyword .funWord
          (Grammar.ofDepth depth).literalRule start.span)
  | expression : Follows expression Parser.expression
  | sequence : Follows sequence Parser.sequence

/-- The table that is built as an expression is read is the table of the expression: what is looked up
is always there, the same is consumed, and the same errors are reported. It makes no difference
whether the expression is read by itself, inside something, or as a statement. -/
theorem Follows.table {x : Builder Nat} {y : Parser Expr} (h : Follows x y) :
    table x = tabled y := by
  cases h with
  | inner depth least => exact (nests_ofDepth depth least .empty).table
  | innerSequence depth => exact (builds_innerSequence (nests_ofDepth depth)).table
  | sequenceRule depth => exact (builds_sequenceRule (nests_ofDepth depth)).table
  | literalRule depth =>
    exact Builds.table (.read fun start => builds_literalRule (nests_ofDepth depth) start.span)
  | expression => exact builds_expression.table
  | sequence => exact builds_sequence.table

/-- The attribute is left beside the tree: the assignment keeps its object. -/
example :
    (match table expression (.ofSource "a.b = 1") with
      | .ok (some (root, c)) _ => (root, (c.node? root).map Node.refs, c.nodes.size)
      | _ => (0, none, 0)) = (3, some [0, 2], 4) := by
  decide +kernel

end Builder
end Rill.Syntax
