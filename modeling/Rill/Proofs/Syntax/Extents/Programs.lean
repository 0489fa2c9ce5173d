import Rill.Proofs.Syntax.Arena
import Rill.Proofs.Syntax.Extents.Statements
import Rill.Proofs.Token.Tiling

/-! The places of all parts of a program that is read, and of the nodes of its expressions. -/
namespace Rill.Syntax

open Text (Span)
open String.Pos.Raw (IsValid)

namespace Part

/-- A part, the parts inside it, those inside them, and so on. -/
inductive Inner (x : Part) : Part → Prop
  | refl : Inner x x
  | part {y z} : Inner x y → z ∈ y.parts → Inner x z

/-- A part of a program, at any depth. -/
def Of (p : Program) (x : Part) : Prop := ∃ s ∈ p, Inner (.stmt s) x

/-- The loop that an initializer is written into, as a part of the two together. -/
def IsLoopOf (x pair : Part) : Prop :=
  ∃ i c p body s, pair = stmt (.block (initial i ++ [.loop c body p false s]) s) ∧
    x = stmt (.loop c body p false s)

theorem Inner.trans {x y z : Part} (h : Inner x y) (h' : Inner y z) : Inner x z := by
  induction h' with
  | refl => exact h
  | part _ hmem ih => exact ih.part hmem

/-! ### Parts and their tokens -/

theorem Rows.drop {xs ys : List Part} {ts : List Token} (h : Rows (xs ++ ys) ts) : Rows ys ts := by
  induction xs generalizing ts with
  | nil => exact h
  | cons x xs ih =>
    cases h with
    | cons _ hxs =>
      rw [← List.append_assoc]
      exact (ih hxs).after _

/-- An initializer and a loop follow one another, up to what the loop has for its place. -/
theorem Exact.of_pair {i c p : Option Expr} {body : List Stmt} {s : Span} {ts : List Token}
    (h : (stmt (.block (initial i ++ [.loop c body p false s]) s)).Exact ts) :
    Rows (stmts (initial i) ++ (stmt (.loop c body p false s)).parts) ts := by
  generalize hbody : initial i ++ [.loop c body p false s] = block at h
  cases h with
  | whole hpair => cases hpair
  | pair _ _ hrows =>
    obtain ⟨hinitial, hloop⟩ := List.append_inj' hbody rfl
    cases hloop
    rwa [hinitial]

/-- Only an initializer and its loop are put together in the place of the two. -/
theorem Exact.isLoopOf {x y : Part} {ts : List Token} (h : x.Exact ts) (hx : x.isPair = true)
    (hy : y ∈ x.parts) : y.IsLoopOf x ∨ ∃ us, us <:+: ts ∧ y.Exact us := by
  cases h with
  | whole hpair =>
    rw [hpair] at hx
    cases hx
  | @pair i c p body s _ _ _ hrows =>
    have hmem : y ∈ stmts (initial i) ∨ y = stmt (.loop c body p false s) := by
      simpa [parts, stmts] using hy
    rcases hmem with hmem | rfl
    · exact .inr (hrows.exists_exact (List.mem_append_left _ hmem))
    · exact .inl ⟨i, c, p, body, s, rfl, rfl⟩

theorem Exact.rows {x : Part} {ts : List Token} (h : x.Exact ts) (hx : x.isPair = false) :
    Rows x.parts ts := by
  cases h with
  | whole _ _ _ hrows => exact hrows
  | pair => cases hx

/-- The part is made of tokens that follow one another. Those of the loop that an initializer is
written into are the tokens of the two. -/
def Seated (p : Program) (ts : List Token) (x : Part) : Prop :=
  ∃ us, us <:+: ts ∧ (x.Exact us ∨ ∃ pair, Of p pair ∧ x.IsLoopOf pair ∧ pair.Exact us)

theorem Seated.tokens {p : Program} {ts : List Token} {x : Part} (h : Seated p ts x) :
    ∃ us, us <:+: ts ∧ Extent us x.span ∧ (x.Spelled (us.map Token.word) ∨
      ∃ pair, Of p pair ∧ x.IsLoopOf pair ∧ pair.Spelled (us.map Token.word)) := by
  obtain ⟨us, hus, hexact | ⟨_, hof, ⟨i, c, p, body, s, rfl, rfl⟩, hexact⟩⟩ := h
  · exact ⟨us, hus, hexact.extent, .inl hexact.spelled⟩
  · exact ⟨us, hus, hexact.extent, .inr ⟨_, hof, ⟨i, c, p, body, s, rfl, rfl⟩, hexact.spelled⟩⟩

/-- The parts inside a loop follow one another as those of any other part do. -/
theorem Seated.rows {p : Program} {ts : List Token} {x : Part} (h : Seated p ts x)
    (hx : x.isPair = false) : ∃ us, us <:+: ts ∧ Extent us x.span ∧ Rows x.parts us := by
  obtain ⟨us, hus, hexact | ⟨_, -, ⟨i, c, p, body, s, rfl, rfl⟩, hexact⟩⟩ := h
  · exact ⟨us, hus, hexact.extent, hexact.rows hx⟩
  · exact ⟨us, hus, hexact.extent, hexact.of_pair.drop⟩

/-- A part inside a part is made of some of its tokens. -/
theorem Seated.part {p : Program} {ts : List Token} {x y : Part} (hof : Of p x)
    (h : Seated p ts x) (hy : y ∈ x.parts) :
    ∃ us, us <:+: ts ∧ Extent us x.span ∧ Seated p us y := by
  cases hx : x.isPair with
  | false =>
    obtain ⟨us, hus, hextent, hrows⟩ := h.rows hx
    obtain ⟨vs, hvs, hexact⟩ := hrows.exists_exact hy
    exact ⟨us, hus, hextent, vs, hvs, .inl hexact⟩
  | true =>
    obtain ⟨us, hus, hexact | ⟨_, -, ⟨i, c, p, body, s, rfl, rfl⟩, hexact⟩⟩ := h
    · refine ⟨us, hus, hexact.extent, ?_⟩
      rcases hexact.isLoopOf hx hy with hloop | ⟨vs, hvs, hexact'⟩
      · exact ⟨us, List.infix_refl us, .inr ⟨x, hof, hloop, hexact⟩⟩
      · exact ⟨vs, hvs, .inl hexact'⟩
    · cases hx

theorem Seated.weaken {p : Program} {ts us : List Token} {x : Part} (h : Seated p us x)
    (hus : us <:+: ts) : Seated p ts x := by
  obtain ⟨vs, hvs, hx⟩ := h
  exact ⟨vs, hvs.trans hus, hx⟩

/-- Where the statements of a program follow one another, every part of it has its place. -/
theorem Of.seated {p : Program} {ts : List Token} {x : Part} (hx : Of p x)
    (h : Rows (stmts p) ts) : Seated p ts x := by
  obtain ⟨s, hs, hx⟩ := hx
  induction hx with
  | refl =>
    obtain ⟨us, hus, hexact⟩ := h.exists_exact (List.mem_map_of_mem hs)
    exact ⟨us, hus, .inl hexact⟩
  | part hinner hmem ih =>
    obtain ⟨us, hus, -, hseated⟩ := ih.part ⟨s, hs, hinner⟩ hmem
    exact hseated.weaken hus

/-! ### Parts and enclosures -/

/-- The statements inside a statement are parts of it, in their order. -/
theorem sublist_of_mem_bodies {s : Stmt} {kind : Enclosure} {body : List Stmt}
    (h : (kind, body) ∈ s.bodies) : (stmts body).Sublist (stmt s).parts := by
  cases s with
  | functionDecl _ | moduleDecl _ _ _ | block _ _ =>
    cases List.mem_singleton.mp h
    exact .refl _
  | classDecl _ _ _ _ =>
    cases List.mem_singleton.mp h
    exact List.sublist_append_right _ _
  | forEach _ _ _ _ =>
    cases List.mem_singleton.mp h
    exact .cons _ (.refl _)
  | ifElse _ _ failure _ =>
    refine .cons _ ?_
    rcases List.mem_cons.mp h with heq | h
    · cases heq
      exact List.sublist_append_left _ _
    · cases failure with
      | none => cases h
      | some _ =>
        cases List.mem_singleton.mp h
        exact List.sublist_append_right _ _
  | loop _ _ _ testAfter _ =>
    cases List.mem_singleton.mp h
    cases testAfter with
    | false => exact (List.sublist_append_right _ _).trans (List.sublist_append_right _ _)
    | true => exact List.sublist_append_left _ _
  | _ => cases h

/-- The statements in braces are parts, in their order, and what they are in is no pair. -/
theorem sublist_parts {x : Part} {body : List Stmt} (h : body ∈ x.bodies) :
    x.isPair = false ∧ (stmts body).Sublist x.parts := by
  cases x with
  | expr e =>
    cases e with
    | function decl =>
      cases List.mem_singleton.mp h
      exact ⟨rfl, .refl _⟩
    | _ => cases h
  | stmt s =>
    cases s with
    | block _ _ => cases h
    | _ =>
      obtain ⟨⟨_, _⟩, hmem, rfl⟩ := List.mem_map.mp h
      exact ⟨rfl, sublist_of_mem_bodies hmem⟩

theorem expr_mem_parts {s : Stmt} {e : Expr} (h : e ∈ s.exprs) : expr e ∈ (stmt s).parts := by
  have hmem : expr e ∈ exprs s.exprs := List.mem_map_of_mem h
  cases s with
  | classDecl _ _ _ _ => exact List.mem_append_left _ hmem
  | ifElse _ _ _ _ | forEach _ _ _ _ =>
    cases List.mem_singleton.mp h
    exact .head _
  | loop condition body step testAfter _ =>
    cases testAfter <;> simpa [parts, exprs, stmts, Stmt.exprs] using h
  | expr _ | returnValue _ _ => exact hmem
  | _ => cases h

/-- The operands of an expression are inside it, those of a target in the expression that it was
read as. -/
theorem inner_of_mem_operands {e f : Expr} (h : f ∈ e.operands) : Inner (expr e) (expr f) := by
  have hmem : expr f ∈ exprs e.operands := List.mem_map_of_mem h
  cases e with
  | assign op target value span =>
    have htarget : Inner (expr (.assign op target value span)) (expr target.toExpr) :=
      .part .refl (.head _)
    rcases List.mem_append.mp h with h | h
    · refine htarget.part ?_
      cases target with
      | var _ => cases h
      | attr _ _ _ | subscript _ _ _ => exact List.mem_map_of_mem h
    · cases List.mem_singleton.mp h
      exact .part .refl (.tail _ (.head _))
  | function _ => cases h
  | _ => exact .part .refl hmem

theorem inner_of_contains {e : Expr} {decl : FunctionDecl} (h : e.Contains decl) :
    Inner (expr e) (expr (.function decl)) := by
  induction h with
  | literal => exact .refl
  | operand hmem _ ih => exact (inner_of_mem_operands hmem).trans ih

/-- Every statement that stands somewhere in a program is a part of it, and so are its
expressions. -/
theorem of_places {p : Program} {around : List Enclosure} {s : Stmt} (h : p.Places around s) :
    Of p (stmt s) ∧ ∀ e ∈ s.exprs, Of p (expr e) := by
  have hstmt : Of p (stmt s) := by
    induction h with
    | top hmem => exact ⟨_, hmem, .refl⟩
    | inside _ hholds ih =>
      obtain ⟨s, hs, hinner⟩ := ih
      refine ⟨s, hs, ?_⟩
      cases hholds with
      | body hbody ht =>
        exact hinner.part ((sublist_of_mem_bodies hbody).subset (List.mem_map_of_mem ht))
      | literal he hdecl ht =>
        have hliteral := (hinner.part (expr_mem_parts he)).trans (inner_of_contains hdecl)
        exact hliteral.part (List.mem_map_of_mem ht)
  obtain ⟨t, ht, hinner⟩ := hstmt
  exact ⟨⟨t, ht, hinner⟩, fun e he => ⟨t, ht, hinner.part (expr_mem_parts he)⟩⟩

end Part

/-! ### Nodes of expressions -/

namespace Arena

/-- Every place that `b` has and `a` does not is that of an expression inside `x`. -/
def Spans (a b : Arena) (x : Part) : Prop :=
  ∀ span ∈ b.spans, span ∈ a.spans ∨ ∃ e : Expr, x.Inner (.expr e) ∧ e.span = span

variable {a b c : Arena} {x y : Part}

theorem Spans.refl : a.Spans a x := fun _ => .inl

theorem Spans.trans (h : a.Spans b x) (h' : b.Spans c x) : a.Spans c x := by
  intro span hmem
  rcases h' span hmem with hmem | hx
  · exact h span hmem
  · exact .inr hx

/-- The nodes of a part are nodes of what it is inside of. -/
theorem Spans.inside (h : a.Spans b y) (hy : y ∈ x.parts) : a.Spans b x := by
  intro span hmem
  refine (h span hmem).imp_right fun ⟨e, he, hspan⟩ => ⟨e, ?_, hspan⟩
  exact (Part.Inner.part .refl hy).trans he

theorem Spans.push {e : Expr} {node : Node} {span : Span} (h : a.Spans b (.expr e))
    (hspan : e.span = span) : a.Spans (b.push node span) (.expr e) := by
  intro place hmem
  rcases Array.mem_push.mp hmem with hmem | rfl
  · exact h place hmem
  · exact .inr ⟨e, .refl, hspan⟩

end Arena

open Arena (Spans)

mutual

/-- A target is placed as the expression that it was read as. -/
theorem Expr.spans_place (a : Arena) : (e : Expr) → a.Spans (e.place a) (.expr e)
  | .atom _ _ => .push .refl rfl
  | .group inner _ => .push ((inner.spans_place a).inside (.head _)) rfl
  | .sequence parts _ => .push (spans_placeAll a parts fun _ he => List.mem_map_of_mem he) rfl
  | .unary _ operand _ => .push ((operand.spans_place a).inside (.head _)) rfl
  | .binary _ lhs rhs _ | .logic _ lhs rhs _ =>
    .push (((lhs.spans_place a).inside (.head _)).trans
      ((rhs.spans_place _).inside (.tail _ (.head _)))) rfl
  | .assign _ target value _ =>
    .push (((target.spans_place a).inside (.head _)).trans
      ((value.spans_place _).inside (.tail _ (.head _)))) rfl
  | .call callee arguments _ =>
    .push (((callee.spans_place a).inside (.head _)).trans
      (spans_placeAll _ arguments fun _ he => .tail _ (List.mem_map_of_mem he))) rfl
  | .create type arguments _ =>
    .push (((type.spans_place a).inside (.head _)).trans
      (spans_placeAll _ arguments fun _ he => .tail _ (List.mem_map_of_mem he))) rfl
  | .subscript object index _ =>
    .push (((object.spans_place a).inside (.head _)).trans
      ((index.spans_place _).inside (.tail _ (.head _)))) rfl
  | .attr object _ _ => .push ((object.spans_place a).inside (.head _)) rfl
  | .function decl =>
    @Spans.push a a (.function decl) (.function a.functions.size) decl.span .refl rfl
  | .list elements _ => .push (spans_placeAll a elements fun _ he => List.mem_map_of_mem he) rfl
  | .dict entries _ => .push (spans_placeEntries a entries fun _ he =>
      ⟨List.mem_map_of_mem (List.mem_flatMap_of_mem he (.head _)),
        List.mem_map_of_mem (List.mem_flatMap_of_mem he (.tail _ (.head _)))⟩) rfl

theorem Target.spans_place (a : Arena) : (t : Target) → a.Spans (t.place a).1 (.expr t.toExpr)
  | .var _ => .push .refl rfl
  | .attr object _ _ => .push ((object.spans_place a).inside (.head _)) rfl
  | .subscript object index _ =>
    .push (((object.spans_place a).inside (.head _)).trans
      ((index.spans_place _).inside (.tail _ (.head _)))) rfl

theorem spans_placeAll {x : Part} (a : Arena) : (es : List Expr) →
    (∀ e ∈ es, .expr e ∈ x.parts) → a.Spans (placeAll a es).1 x
  | [], _ => .refl
  | e :: es, h => ((e.spans_place a).inside (h e (.head _))).trans
      (spans_placeAll _ es fun f hf => h f (.tail _ hf))

theorem spans_placeEntries {x : Part} (a : Arena) : (es : List (Expr × Expr)) →
    (∀ entry ∈ es, .expr entry.1 ∈ x.parts ∧ .expr entry.2 ∈ x.parts) →
    a.Spans (placeEntries a es).1 x
  | [], _ => .refl
  | (key, value) :: es, h =>
    have hentry := h (key, value) (.head _)
    (((key.spans_place a).inside hentry.1).trans ((value.spans_place _).inside hentry.2)).trans
      (spans_placeEntries _ es fun entry he => h entry (.tail _ he))

end

/-! ### Whole programs -/

/-- The places of the parts of a program in a source. `ts` are the tokens that were read. -/
structure Located (source : String) (ts : List Token) (p : Program) : Prop where
  /-- The statements are made of tokens that follow one another, and so are the parts of each. -/
  rows : Part.Rows (Part.stmts p) ts
  /-- Every statement is a part, at any depth, and so is every expression of one. -/
  parts {around : List Enclosure} {s : Stmt} :
    p.Places around s → Part.Of p (.stmt s) ∧ ∀ e ∈ s.exprs, Part.Of p (.expr e)
  /-- From the first byte of the first token of a part to the last byte of its last token. Only the
  loop that an initializer is written into has the place of the two together. -/
  tokens {x : Part} : Part.Of p x →
    ∃ us, us <:+: ts ∧ Extent us x.span ∧ (x.Spelled (us.map Token.word) ∨
      ∃ pair, Part.Of p pair ∧ x.IsLoopOf pair ∧ pair.Spelled (us.map Token.word))
  /-- A part is not empty, and it begins and ends between characters of the source. -/
  valid {x : Part} : Part.Of p x → x.span.start < x.span.stop ∧
    IsValid source ⟨x.span.start⟩ ∧ IsValid source ⟨x.span.stop⟩
  within {x : Part} : Part.Of p x → ∀ y ∈ x.parts,
    x.span.start ≤ y.span.start ∧ y.span.stop ≤ x.span.stop
  siblings {x : Part} : Part.Of p x → x.isPair = false →
    x.parts.Pairwise fun y z => y.span.stop ≤ z.span.start
  /-- The statements of the program, and those in braces, come one after another. -/
  statements {body : List Stmt} : body = p ∨ (∃ x, Part.Of p x ∧ body ∈ x.bodies) →
    body.Pairwise fun s t => s.span.stop ≤ t.span.start
  /-- Every node in the table of an expression has the place of an expression inside it. -/
  nodes {e : Expr} : Part.Of p (.expr e) → ∀ k < e.arena.nodes.size,
    ∃ inner, Part.Of p (.expr inner) ∧ e.arena.span? k = some inner.span

/-- Tokens of a source are in order, none is empty, and all lie between characters. -/
theorem inOrder_of_pieces {source : String} {ts : List Token}
    (h : ts.map .ok <:+: Token.pieces source) :
    InOrder ts ∧ ∀ t ∈ ts, 0 < t.span.length ∧ IsValid source ⟨t.span.start⟩ ∧
      IsValid source ⟨t.span.stop⟩ := by
  have htiled : Token.Tiled 0 source.toList (Token.pieces source) :=
    Token.tiled_piecesFrom 0 source.toList
  refine ⟨?_, fun t ht => ?_⟩
  · have hpairs := htiled.pairwise (List.nil_append _).symm rfl
    exact List.pairwise_map.mp (hpairs.sublist h.sublist)
  · have hmem : .ok t ∈ Token.pieces source := h.subset (List.mem_map_of_mem ht)
    exact (htiled.span_of_mem (List.nil_append _).symm rfl hmem).2

/-- A place that covers tokens of a source is not empty and lies between characters of it. -/
theorem Extent.valid {source : String} {us : List Token} {s : Span} (h : Extent us s)
    (horder : InOrder us) (hus : ∀ t ∈ us, 0 < t.span.length ∧ IsValid source ⟨t.span.start⟩ ∧
      IsValid source ⟨t.span.stop⟩) :
    s.start < s.stop ∧ IsValid source ⟨s.start⟩ ∧ IsValid source ⟨s.stop⟩ := by
  obtain ⟨⟨t, ht, hstart⟩, ⟨u, hu, hstop⟩⟩ := h
  have hmem := List.mem_of_mem_head? ht
  obtain ⟨hpos, hvalid, -⟩ := hus t hmem
  obtain ⟨-, -, hvalid'⟩ := hus u (List.mem_of_mem_getLast? hu)
  have hle : t.span.stop ≤ u.span.stop := horder.le_stop hu hmem
  have hlt : t.span.start < t.span.stop := Nat.lt_add_of_pos_right hpos
  rw [hstart, hstop]
  exact ⟨Nat.lt_of_lt_of_le hlt hle, hvalid, hvalid'⟩

theorem InOrder.part {us ts : List Token} (h : InOrder ts) (hus : us <:+: ts) : InOrder us :=
  h.sublist hus.sublist

/-- The statements of a program that is read are made of tokens of the source. -/
theorem exists_rows_of_parse {source : String} {p : Program} (h : parse source = .ok p) :
    ∃ (ts : List Token) (rest : List Token.Piece),
      Token.pieces source = ts.map .ok ++ rest ∧ InOrder ts ∧ Part.Rows (Part.stmts p) ts := by
  unfold parse at h
  split at h
  next q j hrun =>
    cases h
    have hend : (Input.ofSource source).Ended := rfl
    obtain ⟨ts, hts, -, hrows⟩ := Parser.traces_program hend p j hrun
    have horder := (inOrder_of_pieces ⟨[], j.rest, hts.symm⟩).1
    exact ⟨ts, j.rest, hts, horder, hrows horder⟩
  next => cases h

/-- In a program that is read from a source, every part has the place of its tokens. -/
theorem parse_located {source : String} {p : Program} (h : parse source = .ok p) :
    ∃ (ts : List Token) (rest : List Token.Piece),
      Token.pieces source = ts.map .ok ++ rest ∧ Located source ts p := by
  obtain ⟨ts, rest, hts, horder, hrows⟩ := exists_rows_of_parse h
  have hvalid := (inOrder_of_pieces ⟨[], rest, hts.symm⟩).2
  have hseated {x : Part} (hx : Part.Of p x) : x.Seated p ts := hx.seated hrows
  have hpairs {x : Part} (hx : Part.Of p x) (hpair : x.isPair = false) :
      x.parts.Pairwise fun y z => y.span.stop ≤ z.span.start := by
    obtain ⟨us, hus, -, hparts⟩ := (hseated hx).rows hpair
    exact hparts.pairwise (horder.part hus)
  refine ⟨ts, rest, hts, hrows, Part.of_places, fun hx => (hseated hx).tokens,
    fun hx => ?_, fun hx y hy => ?_, hpairs, fun hbody => ?_, fun {e} he k hk => ?_⟩
  · obtain ⟨us, hus, hextent, -⟩ := (hseated hx).tokens
    exact hextent.valid (horder.part hus) fun t ht => hvalid t (hus.subset ht)
  · obtain ⟨us, hus, hextent, hy⟩ := (hseated hx).part hx hy
    obtain ⟨vs, hvs, hextent', -⟩ := hy.tokens
    exact hextent.within hextent' (horder.part hus) hvs.subset
  · rcases hbody with rfl | ⟨x, hx, hbody⟩
    · exact List.pairwise_map.mp (hrows.pairwise horder)
    · obtain ⟨hpair, hsublist⟩ := Part.sublist_parts hbody
      exact List.pairwise_map.mp ((hpairs hx hpair).sublist hsublist)
  · obtain ⟨s, hs, hinner⟩ := he
    rw [e.paired_arena.size] at hk
    have hfound : e.arena.span? k = some e.arena.spans[k] := Array.getElem?_eq_getElem hk
    rcases Expr.spans_place .empty e _ (Array.getElem_mem hk) with hempty | ⟨inner, he, hspan⟩
    · cases Array.not_mem_empty _ hempty
    · exact ⟨inner, ⟨s, hs, hinner.trans he⟩, by rw [hfound, hspan]⟩

/-- The loop that the initializer `a` is written into has the place of the two together. -/
theorem parse_located_loop :
    let a : Expr := .atom (.var "a") ⟨5, 1⟩
    let b : Expr := .atom (.var "b") ⟨7, 1⟩
    let p : Program := [.block [.expr a, .loop (some b) [] none false ⟨0, 12⟩] ⟨0, 12⟩]
    parse "for (a;b;)\x7b\x7d;" = .ok p ∧ ∃ ts rest,
      Token.pieces "for (a;b;)\x7b\x7d;" = ts.map .ok ++ rest ∧
        Located "for (a;b;)\x7b\x7d;" ts p := by
  intro a b p
  have hread : parse "for (a;b;)\x7b\x7d;" = .ok p := by with_unfolding_all rfl
  exact ⟨hread, parse_located hread⟩

end Rill.Syntax
