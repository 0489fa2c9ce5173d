import Rill.Proofs.Syntax.Bare
import Rill.Proofs.Syntax.Taking

/-! Lists, blocks and functions are read from the words that spell them. -/
namespace Rill

/-- Whether an expression may begin with a token of this kind. -/
def Token.Kind.startsExpr : Token.Kind → Bool
  | .int | .float | .string | .ident => true
  | .keyword .trueWord | .keyword .falseWord | .keyword .nullWord => true
  | .keyword .funWord | .keyword .newWord => true
  | .symbol .leftParen | .symbol .leftBracket | .symbol .leftBrace => true
  | k => (UnaryOp.ofKind? k).isSome

namespace Syntax

open Token (Word Kind)
open Rill.Syntax.Parser

/-! ### First words -/

/-- The words begin like an expression. A function literal has no name. -/
structure Begins (ws : List Word) : Prop where
  starts : (firstKind ws).startsExpr
  unnamed : firstKind ws = .keyword .funWord → firstKind ws.tail = .symbol .leftParen

namespace Begins

variable {vs ws : List Word}

theorem append (h : Begins vs) (ws : List Word) : Begins (vs ++ ws) := by
  match vs with
  | [] => cases h.starts
  | [v] => exact ⟨h.starts, fun hfun => by cases h.unnamed hfun⟩
  | _ :: _ :: _ => exact ⟨h.starts, h.unnamed⟩

theorem ne (h : Begins ws) {k : Kind} (hk : k.startsExpr = false) : firstKind ws ≠ k := by
  intro heq
  have hstarts := h.starts
  rw [heq, hk] at hstarts
  cases hstarts

theorem pos (h : Begins ws) : 0 < ws.length := by
  cases ws with
  | nil => cases h.starts
  | cons => exact Nat.succ_pos _

end Begins

variable {least : Nat}

theorem Expr.Spelled.begins {e : Expr} {ws : List Word} (h : e.Spelled least ws) :
    Begins ws := by
  -- the first words are those of the first operand, which has fewer of them
  induction hn : ws.length using Nat.strongRecOn generalizing e ws with
  | ind n ih =>
    subst hn
    cases h with
    | int | float | string | var | trueWord | falseWord | nullWord => exact ⟨rfl, nofun⟩
    | group | list | dict | create => exact ⟨rfl, nofun⟩
    | function _ hd =>
      cases hd
      exact ⟨rfl, fun _ => rfl⟩
    | @unary op _ _ _ _ _ hop _ =>
      cases op <;> cases List.mem_singleton.mp hop <;> exact ⟨rfl, nofun⟩
    | binary _ hl _ => exact (ih _ (by simp) hl rfl).append _
    | logic _ hl _ => exact (ih _ (by simp) hl rfl).append _
    | assign _ ht _ => exact (ih _ (by simp) ht rfl).append _
    | call hf _ => exact ((ih _ (by simp) hf rfl).append _).append _
    | subscript ho _ => exact ((ih _ (by simp) ho rfl).append _).append _
    | attr ho => exact (ih _ (by simp) ho rfl).append _

theorem SequenceSpelled.begins {e : Expr} {ws : List Word} (h : SequenceSpelled least e ws) :
    Begins ws := by
  cases h with
  | one h => exact h.begins
  | many _ h _ => exact h.begins.append _

theorem Stmt.Spelled.firstKind_ne {s : Stmt} {ws : List Word} (h : s.Spelled least ws) {k : Kind}
    (hk : k ∈ [.symbol .semicolon, .symbol .rightBrace, .eof]) (rest : List Word) :
    firstKind (ws ++ rest) ≠ k := by
  have hexpr : k.startsExpr = false := by
    simp only [List.mem_cons, List.not_mem_nil, or_false] at hk
    rcases hk with rfl | rfl | rfl <;> rfl
  cases h with
  | expr h => exact (h.begins.append rest).ne hexpr
  | _ =>
    rintro rfl
    simp at hk

theorem Stmt.Spelled.pos {s : Stmt} {ws : List Word} (h : s.Spelled least ws) :
    0 < ws.length := by
  cases ws with
  | nil => exact absurd rfl (h.firstKind_ne (k := .eof) (by simp) [])
  | cons => exact Nat.succ_pos _

/-! ### Lists of expressions -/

/-- What is known of the readers of a grammar for up to so many words. -/
structure Grammar.Reads (g : Grammar) (size : Nat) : Prop where
  expression {e : Expr} {ws rest : List Word} {power : Nat} : e.Spelled 1 ws → e.Ordered →
    ws.length ≤ size → power ≤ Suffix.power → (∀ p ∈ e.leftPowers, power ≤ p) →
    (∀ p ∈ power :: e.rightPowers, Stops p rest) →
    Takes (g.expression power) (ws ++ rest) rest fun e' => e'.bare = e.bare
  statement {s : Stmt} {ws rest : List Word} {t : String} : s.Spelled 1 ws → s.Ordered →
    ws.length ≤ size →
    Takes g.statement (ws ++ ⟨.symbol .semicolon, t⟩ :: rest) rest fun s' => s'.bare = s.bare
  conditional {e : Expr} {success : List Stmt} {failure : Option (List Stmt)} {span : Text.Span}
    {ws rest : List Word} : Stmt.Spelled 1 (.ifElse e success failure span) ws →
    (Stmt.ifElse e success failure span).Ordered → ws.length ≤ size →
    firstKind rest = .symbol .semicolon →
    Takes g.conditional (ws ++ rest) rest fun s =>
      s.bare = (Stmt.ifElse e success failure span).bare

namespace Grammar

variable {g : Grammar} {size : Nat} {ws rest : List Word}

theorem takes_ident {text : String} :
    Takes ident (⟨.ident, text⟩ :: rest) rest fun n => n.bare = ⟨text, default⟩ :=
  .bind takes_expect fun t ht => .pure (by simp [Ident.bare, ht])

/-- An expression inside delimiters. -/
theorem Reads.inner (hg : g.Reads size) {e : Expr} (hs : e.Spelled 1 ws) (ho : e.Ordered)
    (hsize : ws.length ≤ size) (hrest : (firstKind rest).leftPower? = none) :
    Takes (g.expression 0) (ws ++ rest) rest fun e' => e'.bare = e.bare :=
  hg.expression hs ho hsize (Nat.zero_le _) (fun _ _ => Nat.zero_le _)
    fun _ _ => stops_of_none hrest

/-- Neither goes on with what comes before nor begins an expression. -/
structure Closing (k : Kind) : Prop where
  power : k.leftPower? = none
  starts : k.startsExpr = false
  comma : k ≠ .symbol .comma

theorem closing_rightParen : Closing (.symbol .rightParen) := ⟨rfl, rfl, nofun⟩

theorem closing_rightBracket : Closing (.symbol .rightBracket) := ⟨rfl, rfl, nofun⟩

theorem closing_semicolon : Closing (.symbol .semicolon) := ⟨rfl, rfl, nofun⟩

theorem PartsSpelled.leftPower? {es : List Expr} (h : PartsSpelled least es ws)
    (hrest : (firstKind rest).leftPower? = none) :
    (firstKind (ws ++ rest)).leftPower? = none := by
  cases h with
  | nil => exact hrest
  | cons => rfl

theorem takes_sequenceParts (hg : g.Reads size) {es : List Expr} (hs : PartsSpelled 1 es ws)
    (ho : AllOrdered es) (hsize : ws.length ≤ size) {room : Nat} (hroom : ws.length ≤ room)
    (hrest : Closing (firstKind rest)) (parts : List Expr) :
    Takes (sequenceParts g room parts) (ws ++ rest) rest fun r =>
      ∃ es', r = es'.reverse ++ parts ∧ bareAll es' = bareAll es := by
  induction es generalizing ws room parts with
  | nil =>
    cases hs
    cases room with
    | zero => exact .pure ⟨[], rfl, rfl⟩
    | succ room =>
      refine .bind (takes_skip_false hrest.comma) fun found hfound => ?_
      subst hfound
      exact .pure ⟨[], rfl, rfl⟩
  | cons e es ih =>
    cases hs with
    | @cons _ _ t vs ws he hes =>
      simp only [List.cons_append, List.length_cons, List.length_append] at hsize hroom
      obtain ⟨room, rfl⟩ := Nat.exists_eq_add_one_of_ne_zero (n := room) (by omega)
      rw [List.cons_append, List.cons_append, List.append_assoc]
      refine .bind takes_skip fun found hfound => ?_
      subst hfound
      have hpower := PartsSpelled.leftPower? hes hrest.power
      refine .bind (hg.inner he ho.1 (by omega) hpower) fun e' he' => ?_
      refine (ih hes ho.2 (by omega) (by omega) (e' :: parts)).weaken ?_
      rintro _ ⟨es', rfl, hes'⟩
      exact ⟨e' :: es', by simp, by simp [bareAll, he', hes']⟩

/-- Expressions between commas, of which the first is taken by a reader of its own. -/
theorem takes_sequence (hg : g.Reads size) {p : Parser Expr} {e : Expr}
    (hs : SequenceSpelled 1 e ws) (ho : e.Ordered) (hsize : ws.length ≤ size + 1)
    (hrest : Closing (firstKind rest))
    (hp : ∀ (e : Expr) (vs rest : List Word), e.Spelled 1 vs → e.Ordered →
      vs.length ≤ ws.length → (firstKind rest).leftPower? = none →
      Takes p (vs ++ rest) rest fun e' => e'.bare = e.bare) :
    Takes (p >>= sequenceRest g) (ws ++ rest) rest fun e' => e'.bare = e.bare := by
  cases hs with
  | one he =>
    refine .bind (hp e ws rest he ho (Nat.le_refl _) hrest.power) fun first hfirst => ?_
    have hnil : PartsSpelled 1 [] [] := .nil
    refine .bind takes_remaining fun n _ => ?_
    refine .bind (takes_sequenceParts hg hnil trivial (by simp) (by simp) hrest [])
      fun parts hparts => ?_
    obtain ⟨es', rfl, hes'⟩ := hparts
    cases es' with
    | nil => exact .pure hfirst
    | cons => cases hes'
  | @many e es s vs ws hne he hes =>
    rw [List.length_append] at hsize
    have hpos := he.begins.pos
    have hpower := PartsSpelled.leftPower? hes hrest.power
    rw [List.append_assoc]
    refine .bind (hp e vs _ he ho.1 (by simp) hpower) fun first hfirst => ?_
    refine .bind takes_remaining fun n hn => ?_
    subst hn
    refine .bind (takes_sequenceParts hg hes ho.2 (by omega) (by simp) hrest [])
      fun parts hparts => ?_
    obtain ⟨es', rfl, hes'⟩ := hparts
    rw [List.append_nil]
    split
    next hnil =>
      obtain rfl := List.reverse_eq_nil_iff.mp hnil
      cases es with
      | nil => exact absurd rfl hne
      | cons => cases hes'
    next last middle hcons =>
      refine .pure ?_
      rw [← hcons, List.reverse_reverse]
      simp [Expr.bare, bareAll, hfirst, hes']

theorem takes_innerSequence (hg : g.Reads size) {e : Expr} (hs : SequenceSpelled 1 e ws)
    (ho : e.Ordered) (hsize : ws.length ≤ size) (hrest : Closing (firstKind rest)) :
    Takes (innerSequence g) (ws ++ rest) rest fun e' => e'.bare = e.bare :=
  takes_sequence hg hs ho (by omega) hrest fun _ _ _ he ho hle hrest =>
    hg.inner he ho (by omega) hrest

theorem takes_delimitedParts (hg : g.Reads size) {es : List Expr} (hs : ItemsSpelled 1 es ws)
    (ho : AllOrdered es) (hsize : ws.length ≤ size) {room : Nat} (hroom : ws.length < room)
    {closing : Symbol} (hclosing : Closing (.symbol closing)) {t : String} (parts : List Expr) :
    Takes (delimitedParts g closing room parts) (ws ++ ⟨.symbol closing, t⟩ :: rest) rest fun r =>
      ∃ es', r.1 = es'.reverse ++ parts ∧ bareAll es' = bareAll es := by
  induction es generalizing ws room parts with
  | nil =>
    cases hs
    obtain ⟨room, rfl⟩ := Nat.exists_eq_add_one_of_ne_zero (n := room) (by simp at hroom; omega)
    refine .bind takes_eat?_some fun found hfound => ?_
    obtain ⟨stop, rfl⟩ := Option.isSome_iff_exists.mp hfound
    exact .pure ⟨[], rfl, rfl⟩
  | cons e es ih =>
    obtain ⟨room, rfl⟩ := Nat.exists_eq_add_one_of_ne_zero (n := room) (by omega)
    cases hs with
    | last he =>
      refine .bind (takes_eat?_none ((he.begins.append _).ne hclosing.starts)) fun found hfound => ?_
      subst hfound
      refine .bind (hg.inner he ho.1 hsize hclosing.power) fun e' he' => ?_
      refine .bind (takes_skip_false hclosing.comma) fun found hfound => ?_
      subst hfound
      exact .bind takes_symbol fun _ _ => .pure ⟨[e'], rfl, by simp [bareAll, he']⟩
    | @cons _ _ u vs ws he hes =>
      simp only [List.length_append, List.length_cons] at hsize hroom
      rw [List.append_assoc, List.cons_append]
      refine .bind (takes_eat?_none ((he.begins.append _).ne hclosing.starts)) fun found hfound => ?_
      subst hfound
      refine .bind (hg.inner he ho.1 (by omega) rfl) fun e' he' => ?_
      refine .bind takes_skip fun found hfound => ?_
      subst hfound
      refine (ih hes ho.2 (by omega) (by omega) (e' :: parts)).weaken ?_
      rintro r ⟨es', hr, hes'⟩
      exact ⟨e' :: es', by simpa using hr, by simp [bareAll, he', hes']⟩

theorem takes_delimited (hg : g.Reads size) {es : List Expr} (hs : ItemsSpelled 1 es ws)
    (ho : AllOrdered es) (hsize : ws.length ≤ size) {closing : Symbol}
    (hclosing : Closing (.symbol closing)) {t : String} :
    Takes (delimited g closing) (ws ++ ⟨.symbol closing, t⟩ :: rest) rest fun r =>
      bareAll r.1 = bareAll es := by
  refine .bind takes_remaining fun n hn => ?_
  subst hn
  have hroom : ws.length < (ws ++ ⟨.symbol closing, t⟩ :: rest).length := by simp
  refine .bind (takes_delimitedParts hg hs ho hsize hroom hclosing []) fun r hr => .pure ?_
  obtain ⟨es', hr, hes'⟩ := hr
  simp [hr, hes']

theorem takes_dictEntries (hg : g.Reads size) {es : List (Expr × Expr)}
    (hs : EntriesSpelled 1 es ws) (ho : EntriesOrdered es) (hsize : ws.length ≤ size) {room : Nat}
    (hroom : ws.length < room) {t : String} (entries : List (Expr × Expr)) :
    Takes (dictEntries g room entries) (ws ++ ⟨.symbol .rightBrace, t⟩ :: rest) rest fun r =>
      ∃ es', r.1 = es'.reverse ++ entries ∧ bareEntries es' = bareEntries es := by
  induction es generalizing ws room entries with
  | nil =>
    cases hs
    obtain ⟨room, rfl⟩ := Nat.exists_eq_add_one_of_ne_zero (n := room) (by simp at hroom; omega)
    refine .bind takes_eat?_some fun found hfound => ?_
    obtain ⟨stop, rfl⟩ := Option.isSome_iff_exists.mp hfound
    exact .pure ⟨[], rfl, rfl⟩
  | cons entry es ih =>
    obtain ⟨room, rfl⟩ := Nat.exists_eq_add_one_of_ne_zero (n := room) (by omega)
    cases hs with
    | @last k v u us vs hk hv =>
      simp only [List.length_append, List.length_cons] at hsize
      rw [List.append_assoc, List.cons_append]
      refine .bind (takes_eat?_none ((hk.begins.append _).ne rfl)) fun found hfound => ?_
      subst hfound
      refine .bind (hg.inner hk ho.1 (by omega) rfl) fun k' hk' => .bind takes_symbol fun _ _ => ?_
      refine .bind (hg.inner hv ho.2.1 (by omega) rfl) fun v' hv' => ?_
      refine .bind (takes_skip_false nofun) fun found hfound => ?_
      subst hfound
      exact .bind takes_symbol fun _ _ => .pure ⟨[(k', v')], rfl, by simp [bareEntries, hk', hv']⟩
    | @cons k v _ u u' us vs ws hk hv hes =>
      simp only [List.length_append, List.length_cons] at hsize hroom
      simp only [List.append_assoc, List.cons_append]
      refine .bind (takes_eat?_none ((hk.begins.append _).ne rfl)) fun found hfound => ?_
      subst hfound
      refine .bind (hg.inner hk ho.1 (by omega) rfl) fun k' hk' => .bind takes_symbol fun _ _ => ?_
      refine .bind (hg.inner hv ho.2.1 (by omega) rfl) fun v' hv' => ?_
      refine .bind takes_skip fun found hfound => ?_
      subst hfound
      refine (ih hes ho.2.2 (by omega) (by omega) ((k', v') :: entries)).weaken ?_
      rintro r ⟨es', hr, hes'⟩
      exact ⟨(k', v') :: es', by simpa using hr, by simp [bareEntries, hk', hv', hes']⟩

/-! ### Blocks and functions -/

/-- The first semicolon after a statement. -/
theorem Semicolons.exists_cons (h : Semicolons 1 ws) :
    ∃ t vs, ws = ⟨.symbol .semicolon, t⟩ :: vs ∧ Semicolons 0 vs := by
  match ws with
  | [] => cases h.1
  | ⟨k, t⟩ :: vs =>
    obtain rfl : k = .symbol .semicolon := h.2 _ List.mem_cons_self
    exact ⟨t, vs, rfl, Nat.zero_le _, fun w hw => h.2 w (List.mem_cons_of_mem _ hw)⟩

theorem BodySpelled.firstKind_ne {ss : List Stmt} (h : BodySpelled least ss ws) {k : Kind}
    (hk : k ∈ [.symbol .semicolon, .eof]) (hrest : firstKind rest ≠ k) :
    firstKind (ws ++ rest) ≠ k := by
  cases h with
  | nil => exact hrest
  | cons hs =>
    rw [List.append_assoc, List.append_assoc]
    refine hs.firstKind_ne ?_ _
    simp only [List.mem_cons, List.not_mem_nil, or_false] at hk
    rcases hk with rfl | rfl <;> simp

theorem takes_blockStatements (hg : g.Reads size) {ss : List Stmt} {vs : List Word}
    (hvs : Semicolons 0 vs) (hs : BodySpelled 1 ss ws) (ho : BodyOrdered ss)
    (hsize : ws.length ≤ size) {room : Nat} (hroom : ws.length < room) {t : String}
    (body : List Stmt) :
    Takes (blockStatements g room body) (vs ++ (ws ++ ⟨.symbol .rightBrace, t⟩ :: rest)) rest
      fun r => ∃ ss', r.1 = ss'.reverse ++ body ∧ bareBody ss' = bareBody ss := by
  induction ss generalizing vs ws room body with
  | nil =>
    obtain ⟨room, rfl⟩ := Nat.exists_eq_add_one_of_ne_zero (n := room) (by omega)
    have hfirst : firstKind (ws ++ ⟨.symbol .rightBrace, t⟩ :: rest) ≠ .symbol .semicolon :=
      BodySpelled.firstKind_ne hs (by simp) nofun
    refine .bind takes_remaining fun n hn => ?_
    subst hn
    refine .bind (takes_skipSemicolons hvs (by simp) hfirst) fun _ _ => ?_
    cases hs
    refine .bind takes_eat?_some fun found hfound => ?_
    obtain ⟨stop, rfl⟩ := Option.isSome_iff_exists.mp hfound
    exact .pure ⟨[], rfl, rfl⟩
  | cons s ss ih =>
    obtain ⟨room, rfl⟩ := Nat.exists_eq_add_one_of_ne_zero (n := room) (by omega)
    have hfirst : firstKind (ws ++ ⟨.symbol .rightBrace, t⟩ :: rest) ≠ .symbol .semicolon :=
      BodySpelled.firstKind_ne hs (by simp) nofun
    refine .bind takes_remaining fun n hn => ?_
    subst hn
    refine .bind (takes_skipSemicolons hvs (by simp) hfirst) fun _ _ => ?_
    cases hs with
    | @cons _ _ us xs ws hs hxs hss =>
      obtain ⟨u, ys, rfl, hys⟩ := Semicolons.exists_cons hxs
      simp only [List.length_append, List.length_cons] at hsize hroom
      simp only [List.append_assoc, List.cons_append]
      refine .bind (takes_eat?_none (hs.firstKind_ne (by simp) _)) fun found hfound => ?_
      subst hfound
      refine .bind (takes_check_false (hs.firstKind_ne (by simp) _)) fun atEnd hend => ?_
      subst hend
      refine .bind (hg.statement hs ho.1 (by omega)) fun s' hs' => ?_
      refine (ih hys hss ho.2 (by omega) (by omega) (s' :: body)).weaken ?_
      rintro r ⟨ss', hr, hss'⟩
      exact ⟨s' :: ss', by simpa using hr, by simp [bareBody, hs', hss']⟩

theorem takes_block (hg : g.Reads size) {ss : List Stmt} (hs : BlockSpelled 1 ss ws)
    (ho : BodyOrdered ss) (hsize : ws.length ≤ size) :
    Takes (block g) (ws ++ rest) rest fun r => bareBody r.1 = bareBody ss := by
  cases hs with
  | @mk _ t u vs ws hvs hss =>
    simp only [List.length_append, List.length_cons] at hsize
    simp only [List.append_assoc, List.cons_append, List.nil_append]
    refine .bind takes_symbol fun start _ => .bind takes_remaining fun n hn => ?_
    subst hn
    have hroom : ws.length <
        (vs ++ (ws ++ (⟨.symbol .rightBrace, u⟩ : Word) :: rest)).length := by
      simp only [List.length_append, List.length_cons]
      omega
    refine .bind (takes_blockStatements hg hvs hss ho (by omega) hroom []) fun r hr => .pure ?_
    obtain ⟨ss', hr, hss'⟩ := hr
    simp [hr, hss']

theorem takes_parameterNames {ns : List Ident} (hne : ns ≠ []) (hs : NamesSpelled ns ws)
    {room : Nat} (hroom : ws.length ≤ room) (hrest : firstKind rest ≠ .symbol .comma)
    (names : List Ident) :
    Takes (parameterNames room names) (ws ++ rest) rest fun r =>
      ∃ ns' : List Ident, r = ns'.reverse ++ names ∧ ns'.map Ident.bare = ns.map Ident.bare := by
  induction hs generalizing room names with
  | nil => exact absurd rfl hne
  | @one n s =>
    obtain ⟨room, rfl⟩ := Nat.exists_eq_add_one_of_ne_zero (n := room) (by simp at hroom; omega)
    refine .bind takes_ident fun n' hn' => .bind (takes_skip_false hrest) fun found hfound => ?_
    subst hfound
    exact .pure ⟨[n'], rfl, by rw [List.map_singleton, hn']; rfl⟩
  | @cons n s t ns ws hns _ ih =>
    simp only [List.length_cons] at hroom
    obtain ⟨room, rfl⟩ := Nat.exists_eq_add_one_of_ne_zero (n := room) (by omega)
    refine .bind takes_ident fun n' hn' => .bind takes_skip fun found hfound => ?_
    subst hfound
    refine (ih hns (by omega) (n' :: names)).weaken ?_
    rintro _ ⟨ns', rfl, hns'⟩
    exact ⟨n' :: ns', by simp, by rw [List.map_cons, hn', hns']; rfl⟩

theorem takes_parameterList {ns : List Ident} (hs : NamesSpelled ns ws) {t : String} :
    Takes parameterList (ws ++ ⟨.symbol .rightParen, t⟩ :: rest) rest fun ns' =>
      ns'.map Ident.bare = ns.map Ident.bare := by
  by_cases hne : ns = []
  · subst hne
    cases hs
    refine .bind takes_skip fun found hfound => ?_
    subst hfound
    exact .pure rfl
  · have hfirst : firstKind (ws ++ ⟨.symbol .rightParen, t⟩ :: rest) ≠ .symbol .rightParen := by
      cases hs with
      | nil => exact absurd rfl hne
      | _ => nofun
    refine .bind (takes_skip_false hfirst) fun found hfound => ?_
    subst hfound
    refine .bind takes_remaining fun n hn => ?_
    subst hn
    have hcomma : firstKind (⟨.symbol .rightParen, t⟩ :: rest) ≠ .symbol .comma := nofun
    refine .bind (takes_parameterNames hne hs (by simp) hcomma []) fun names hnames => ?_
    obtain ⟨ns', rfl, hns'⟩ := hnames
    exact .bind takes_symbol fun _ _ => .pure (by simpa using hns')

theorem takes_functionRest (hg : g.Reads size) {d : FunctionDecl} (hs : FunctionSpelled 1 d ws)
    (ho : d.Ordered) (hsize : ws.length ≤ size + 1) {name : Ident}
    (hname : name.bare = d.name.bare) (start : Text.Span) :
    Takes (functionRest g name start) (ws ++ rest) rest fun d' => d'.bare = d.bare := by
  obtain ⟨n, ns, body, span⟩ := d
  cases hs with
  | @mk _ t u vs ws hns hb =>
    simp only [List.length_append, List.length_cons] at hsize
    simp only [List.append_assoc, List.cons_append]
    refine .bind takes_symbol fun _ _ => .bind (takes_parameterList hns) fun ns' hns' => ?_
    refine .bind (takes_block hg hb ho (by omega)) fun r hr => .pure ?_
    simp only [FunctionDecl.bare, hr]
    rw [hns', hname]

end Grammar
end Syntax
end Rill
