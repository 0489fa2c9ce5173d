import Mathlib.Algebra.Group.Nat.Defs
import Rill.Proofs.Syntax.Tables.Origins

/-! The tables of the expressions that are read from a source. -/
namespace Rill.Syntax

open Token (Word)
open Arena (size_push size_pushFunction)

/-! ### Nodes and words -/

theorem Target.place_toExpr (a : Arena) (t : Target) : t.toExpr.place a = (t.place a).1 := by
  cases t <;> rfl

-- Every node has a word of its own.
mutual

theorem Expr.Spelled.size_place {least : Nat} (a : Arena) : {e : Expr} → {ws : List Word} →
    e.Spelled least ws → (e.place a).nodes.size ≤ a.nodes.size + ws.length
  | _, _, .int | _, _, .float | _, _, .string | _, _, .var | _, _, .trueWord
  | _, _, .falseWord | _, _, .nullWord => Nat.le_of_eq (size_push ..)
  | .group _ _, _, .group h => by
    have hle := h.size_place a
    simp only [Expr.place, size_push, List.length_append, List.length_cons]
    omega
  | .unary _ _ _, _, .unary _ h => by
    have hle := h.size_place a
    simp only [Expr.place, size_push, List.length_cons]
    omega
  | .binary _ l _ _, _, .binary _ hl hr => by
    have hle := hl.size_place a
    have hle' := hr.size_place (l.place a)
    simp only [Expr.place, size_push, List.length_append, List.length_cons]
    omega
  | .logic _ l _ _, _, .logic _ hl hr => by
    have hle := hl.size_place a
    have hle' := hr.size_place (l.place a)
    simp only [Expr.place, size_push, List.length_append, List.length_cons]
    omega
  | .assign _ target _ _, _, .assign _ ht he => by
    have hle := ht.size_place a
    have hle' := he.size_place (target.place a).1
    rw [Target.place_toExpr] at hle
    simp only [Expr.place, size_push, List.length_append, List.length_cons]
    omega
  | .call f _ _, _, .call hf hes => by
    have hle := hf.size_place a
    have hle' := hes.size_place (f.place a)
    simp only [Expr.place, size_push, List.length_append, List.length_cons]
    omega
  | .create type _ _, _, .create ht hes => by
    have hle := ht.size_place a
    have hle' := hes.size_place (type.place a)
    simp only [Expr.place, size_push, List.length_append, List.length_cons]
    omega
  | .subscript o _ _, _, .subscript ho hi => by
    have hle := ho.size_place a
    have hle' := hi.size_place (o.place a)
    simp only [Expr.place, size_push, List.length_append, List.length_cons]
    omega
  | .attr _ _ _, _, .attr ho => by
    have hle := ho.size_place a
    simp only [Expr.place, size_push, List.length_append, List.length_cons]
    omega
  | .function _, _, .function _ _ => by
    simp only [Expr.place, size_pushFunction, List.length_cons]
    omega
  | .list _ _, _, .list hes => by
    have hle := hes.size_place a
    simp only [Expr.place, size_push, List.length_append, List.length_cons]
    omega
  | .dict _ _, _, .dict hes => by
    have hle := hes.size_place a
    simp only [Expr.place, size_push, List.length_append, List.length_cons]
    omega

theorem ClassSpelled.size_place {least : Nat} (a : Arena) : {e : Expr} → {ws : List Word} →
    ClassSpelled least e ws → (e.place a).nodes.size ≤ a.nodes.size + ws.length
  | _, _, .var => Nat.le_of_eq (size_push ..)
  | .group _ _, _, .group h => by
    have hle := h.size_place a
    simp only [Expr.place, size_push, List.length_append, List.length_cons]
    omega
  | .attr _ _ _, _, .attr ho => by
    have hle := ho.size_place a
    simp only [Expr.place, size_push, List.length_append, List.length_cons]
    omega

theorem SequenceSpelled.size_place {least : Nat} (a : Arena) : {e : Expr} → {ws : List Word} →
    SequenceSpelled least e ws → (e.place a).nodes.size ≤ a.nodes.size + ws.length
  | _, _, .one h => h.size_place a
  | .sequence (e :: _) _, _, .many hne he hes => by
    have hle := he.size_place a
    have hle' := hes.size_place (e.place a)
    -- the commas are one less than the parts, of which there are two at least
    have hpos := List.length_pos_iff.mpr hne
    simp only [Expr.place, placeAll, size_push, List.length_append]
    omega

theorem PartsSpelled.size_place {least : Nat} (a : Arena) : {es : List Expr} → {ws : List Word} →
    PartsSpelled least es ws → (placeAll a es).1.nodes.size + es.length ≤ a.nodes.size + ws.length
  | _, _, .nil => Nat.le_refl _
  | e :: _, _, .cons he hes => by
    have hle := he.size_place a
    have hle' := hes.size_place (e.place a)
    simp only [placeAll, List.length_append, List.length_cons]
    omega

theorem ItemsSpelled.size_place {least : Nat} (a : Arena) : {es : List Expr} → {ws : List Word} →
    ItemsSpelled least es ws → (placeAll a es).1.nodes.size ≤ a.nodes.size + ws.length
  | _, _, .nil => Nat.le_refl _
  | _, _, .last he => he.size_place a
  | e :: _, _, .cons he hes => by
    have hle := he.size_place a
    have hle' := hes.size_place (e.place a)
    simp only [placeAll, List.length_append, List.length_cons]
    omega

theorem EntriesSpelled.size_place {least : Nat} (a : Arena) : {es : List (Expr × Expr)} →
    {ws : List Word} → EntriesSpelled least es ws →
    (placeEntries a es).1.nodes.size ≤ a.nodes.size + ws.length
  | _, _, .nil => Nat.le_refl _
  | (k, _) :: _, _, .last hk hv => by
    have hle := hk.size_place a
    have hle' := hv.size_place (k.place a)
    simp only [placeEntries, List.length_append, List.length_cons]
    omega
  | (k, v) :: _, _, .cons hk hv hes => by
    have hle := hk.size_place a
    have hle' := hv.size_place (k.place a)
    have hle'' := hes.size_place (v.place (k.place a))
    simp only [placeEntries, List.length_append, List.length_cons]
    omega

end

/-! ### Readings of a source -/

/-- What is read from a source: a whole program, or a statement, an expression or a sequence of
expressions from any place on. The last two are taken for statements. -/
inductive Reads (source : String) : Program → Prop
  | program {p} : parse source = .ok p → Reads source p
  | statement {n s j} : Parser.statement (.after source n) = .ok s j → Reads source [s]
  | expression {n e j} : Parser.expression (.after source n) = .ok e j → Reads source [.expr e]
  | sequence {n e j} : Parser.sequence (.after source n) = .ok e j → Reads source [.expr e]

/-- However it is read, the parts of it have tokens of the source. -/
theorem Reads.rows {source : String} {p : Program} (h : Reads source p) :
    ∃ ts : List Token, ts.map .ok <:+: Token.pieces source ∧ Part.Rows (Part.stmts p) ts := by
  have hend (n : Nat) : (Input.after source n).Ended := rfl
  have hwithin {n : Nat} {ts : List Token} {rest : List Token.Piece}
      (h : (Token.pieces source).drop n = ts.map .ok ++ rest) :
      ts.map .ok <:+: Token.pieces source := by
    refine .trans ⟨[], rest, ?_⟩ (List.drop_suffix n _).isInfix
    rw [List.nil_append, h]
  cases h with
  | program h =>
    obtain ⟨ts, rest, hts, -, hrows⟩ := exists_rows_of_parse h
    exact ⟨ts, ⟨[], rest, hts.symm⟩, hrows⟩
  | @statement n s j h =>
    obtain ⟨_, hts, -, us, vs, rfl, hs⟩ := Parser.traces_statement (hend n) s j h
    have hus : us.map .ok <:+: Token.pieces source := by
      refine .trans (List.prefix_append _ (vs.map .ok)).isInfix ?_
      rw [← List.map_append]
      exact hwithin hts
    exact ⟨us, hus, .one (hs (inOrder_of_pieces hus).1)⟩
  | @expression n e j h =>
    obtain ⟨ts, hts, -, he, -⟩ := Parser.traces_expression (hend n) e j h
    have horder := (inOrder_of_pieces (hwithin hts)).1
    exact ⟨ts, hwithin hts, .one (he horder).toStmt⟩
  | @sequence n e j h =>
    obtain ⟨ts, hts, -, he⟩ := Parser.traces_sequence (hend n) e j h
    have horder := (inOrder_of_pieces (hwithin hts)).1
    exact ⟨ts, hwithin hts, .one (he horder).toStmt⟩

theorem length_le_byteLength (cs : List Char) : cs.length ≤ Text.byteLength cs := by
  induction cs with
  | nil => exact Nat.le_refl _
  | cons c cs ih =>
    have hpos := c.utf8Size_pos
    rw [List.length_cons, Text.byteLength_cons]
    omega

/-- A source has at least as many bytes as pieces. -/
theorem length_pieces_le (source : String) :
    (Token.pieces source).length ≤ source.utf8ByteSize := by
  have htiled : Token.Tiled 0 source.toList (Token.pieces source) :=
    Token.tiled_piecesFrom 0 source.toList
  have hbytes := length_le_byteLength source.toList
  rw [← Text.utf8ByteSize_ofList, String.ofList_toList] at hbytes
  exact Nat.le_trans htiled.length_le hbytes

/-- An expression inside of what is read is spelled by tokens of the source. -/
theorem Part.Of.exists_spelled {p : Program} {ts : List Token} {e : Expr} (h : Part.Of p (.expr e))
    (hrows : Part.Rows (Part.stmts p) ts) :
    ∃ us : List Token, us <:+: ts ∧ SequenceSpelled 0 e (us.map Token.word) := by
  obtain ⟨us, hus, -, hs | ⟨_, -, ⟨_, _, _, _, _, -, heq⟩, -⟩⟩ := (h.seated hrows).tokens
  · exact ⟨us, hus, hs⟩
  · cases heq

/-- However it is read, the expressions of its statements have tables that were built. -/
theorem Reads.tabled {source : String} {p : Program} (h : Reads source p) {s : Stmt}
    (hs : Part.Of p (.stmt s)) : ∀ e ∈ s.exprs, e.Tabled source := by
  have hbacked : ∀ t ∈ p, (Part.stmt t).Backed source := by
    cases h with
    | program h =>
      unfold parse at h
      split at h
      next hrun =>
        cases h
        exact (Parser.yields_program 0 _ _ hrun).2
      next => cases h
    | statement h => simpa using (Parser.backs_statement _ _ _ h).2
    | expression h =>
      have howned := (Parser.owned_expression _ _ _ h).2
      simpa using Stmt.backed (s := .expr _) (by simpa [Stmt.exprs] using howned) nofun
    | sequence h =>
      have howned := (Parser.owned_sequence _ _ _ h).2
      simpa using Stmt.backed (s := .expr _) (by simpa [Stmt.exprs] using howned) nofun
  obtain ⟨t, ht, hinner⟩ := hs
  exact hbacked t ht s hinner

/-- What is read into a table of its own is spelled by the words that are read. -/
theorem Builder.Follows.finds {x : Builder Nat} {y : Parser Expr} (h : Follows x y) (i : Input) :
    Parser.Finds i y fun e ws _ => ∃ least, SequenceSpelled least e ws := by
  cases h with
  | inner depth least =>
    exact ((Grammar.sound_ofDepth depth).expression least i).weaken fun _ _ _ _ h => ⟨_, .one h.1.spelled⟩
  | innerSequence depth =>
    exact (Grammar.finds_innerSequence (Grammar.sound_ofDepth depth)).weaken fun _ _ _ _ h => ⟨0, h.1⟩
  | sequenceRule depth =>
    exact (Grammar.finds_sequenceRule (Grammar.sound_ofDepth depth)).weaken fun _ _ _ _ h => ⟨0, h.1⟩
  | literalRule depth =>
    refine .bind (Parser.finds_keyword .funWord) fun start _ _ _ h => ?_
    subst h
    exact (Grammar.finds_literalRule (Grammar.sound_ofDepth depth) start.span start.text).weaken
      fun _ _ _ _ h => ⟨0, h.1⟩
  | expression => exact Parser.finds_expression.weaken fun _ _ _ _ h => ⟨0, .one h.1⟩
  | sequence => exact Parser.finds_sequence.weaken fun _ _ _ _ h => ⟨0, h.1⟩

/-- An expression that is spelled by some words of a source has no more nodes than the source has
bytes. -/
theorem SequenceSpelled.size_arena_le {source : String} {least : Nat} {e : Expr} {ws : List Word}
    (h : SequenceSpelled least e ws) (hws : ws.length ≤ (Token.pieces source).length) :
    e.arena.nodes.size ≤ source.utf8ByteSize := by
  have hle := h.size_place .empty
  rw [Arena.empty, Array.size_empty, Nat.zero_add] at hle
  exact hle.trans (hws.trans (length_pieces_le source))

/-- What is given as a table is the table of an expression, and it is no larger than the source. -/
theorem Builder.Gives.exists_expr {source : String} {built : Option (Nat × Arena)}
    (h : Builder.Gives source built) :
    ∃ e : Expr, built = some (e.arena.last, e.arena) ∧
      e.arena.nodes.size ≤ source.utf8ByteSize := by
  obtain ⟨x, y, hxy, n, j, hrun⟩ := h
  rw [hxy.table] at hrun
  obtain ⟨e, k, he, hbuilt⟩ := of_bind_eq_ok hrun
  cases hbuilt
  obtain ⟨ws, hpast, _, hs⟩ := hxy.finds (.after source n) rfl e _ he
  refine ⟨e, rfl, hs.size_arena_le ?_⟩
  have hlength := hpast.length
  have hdrop : (Input.after source n).rest.length ≤ (Token.pieces source).length :=
    (List.drop_sublist n _).length_le
  omega

/-- Whatever is built as the table of an expression is a tree with its root last, beside which there
are only nodes that were turned into targets of assignments, and its numbers fit 32 bits if the
number of bytes of the source does. The table of every expression of a statement that is read is built
so, at any depth of the program, and the same is true of the expressions inside it. -/
theorem read_tables {source : String} (hsize : source.utf8ByteSize < 2 ^ 32) :
    (∀ {built}, Builder.Gives source built →
      ∃ root c, built = some (root, c) ∧ c.WellFormed root ∧ c.nodes.size < 2 ^ 32) ∧
    ∀ {p}, Reads source p →
      (∀ {s}, Part.Of p (.stmt s) → ∀ e ∈ s.exprs,
        Builder.Gives source (some (e.arena.last, e.arena))) ∧
      ∀ {e}, Part.Of p (.expr e) →
        e.arena.WellFormed e.arena.last ∧ e.arena.nodes.size < 2 ^ 32 := by
  refine ⟨fun h => ?_, fun {p} h => ⟨fun hs => h.tabled hs, fun {e} he => ⟨Arena.wellFormed e, ?_⟩⟩⟩
  · obtain ⟨e, rfl, hle⟩ := h.exists_expr
    exact ⟨_, _, rfl, Arena.wellFormed e, hle.trans_lt hsize⟩
  · obtain ⟨ts, hts, hrows⟩ := h.rows
    obtain ⟨us, hus, hs⟩ := he.exists_spelled hrows
    have htokens := hus.length_le
    have hpieces := hts.length_le
    rw [List.length_map] at hpieces
    exact (hs.size_arena_le (by rw [List.length_map]; omega)).trans_lt hsize

theorem read_tables_assign :
    let e : Expr := .assign .plain (.var ⟨"a", ⟨0, 1⟩⟩) (.atom (.var "b") ⟨2, 1⟩) ⟨0, 3⟩
    "a=b;".utf8ByteSize < 2 ^ 32 ∧ Reads "a=b;" [.expr e] ∧
      Builder.Gives "a=b;" (some (2, e.arena)) ∧ e.arena.WellFormed 2 := by
  intro e
  have hsize : "a=b;".utf8ByteSize < 2 ^ 32 := by decide
  have hparse : parse "a=b;" = .ok [.expr e] := by with_unfolding_all rfl
  have he : Part.Of [.expr e] (.expr e) := ⟨.expr e, .head _, .part .refl (.head _)⟩
  obtain ⟨hbuilt, hinner⟩ := (read_tables hsize).2 (.program hparse)
  exact ⟨hsize, .program hparse, hbuilt ⟨.expr e, .head _, .refl⟩ e (.head _), (hinner he).1⟩

end Rill.Syntax
