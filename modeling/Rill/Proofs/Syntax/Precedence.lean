import Rill.Proofs.Syntax.Finding
import Rill.Proofs.Syntax.Powers

/-! Readers of expressions arrange operators by their binding powers and leave out no word. -/
namespace Rill.Syntax

open Token (Word Kind)
open Rill.Syntax.Parser

/-- The next token takes no operand from an operator of this power. -/
def Input.Below (i : Input) (power : Nat) : Prop :=
  ∀ t, i.Next t → ∀ q, t.kind.leftPower? = some q → q < power

/-- An expression at the end of which the input begins, with operators of at least the given power
that keep their operands. -/
structure Placed (least : Nat) (e : Expr) (ws : List Word) (i : Input) : Prop where
  spelled : e.Spelled 0 ws
  ordered : e.Ordered
  left : ∀ p ∈ e.leftPowers, least ≤ p
  right : ∀ p ∈ e.rightPowers, i.Below p

/-- What is known of the readers of a grammar. -/
structure Grammar.Sound (g : Grammar) : Prop where
  expression (least : Nat) (i : Input) :
    Finds i (g.expression least) fun e ws j => Placed least e ws j ∧ j.Below least
  statement (i : Input) : Finds i g.statement fun s ws _ =>
    ∃ us vs, ws = us ++ vs ∧ s.Spelled 0 us ∧ Semicolons 0 vs ∧ s.Ordered
  conditional (i : Input) : Finds i g.conditional fun s ws _ =>
    s.Spelled 0 ws ∧ s.Ordered ∧ ∃ e success failure span, s = .ifElse e success failure span

namespace Grammar

variable {g : Grammar} {i : Input}

theorem finds_noExpression {α : Type} {S : α → List Word → Input → Prop} :
    Finds i noExpression S :=
  .bind finds_next fun _ _ _ _ _ => .fail

theorem sound_empty : empty.Sound :=
  ⟨fun _ _ => finds_noExpression, fun _ => finds_noExpression, fun _ => finds_noExpression⟩

theorem finds_ident : Finds i ident fun n ws _ => ws = [⟨.ident, n.name⟩] :=
  .bind (finds_expect nofun) fun t vs j _ h => .pure (by rw [h]; rfl)

/-! ### Lists of expressions -/

/-- An expression inside delimiters. -/
theorem Sound.inner (hg : g.Sound) (i : Input) :
    Finds i (g.expression 0) fun e ws _ => e.Spelled 0 ws ∧ e.Ordered :=
  (hg.expression 0 i).weaken fun _ _ _ _ h => ⟨h.1.spelled, h.1.ordered⟩

theorem finds_sequenceParts (hg : g.Sound) (room : Nat) (parts : List Expr) :
    Finds i (sequenceParts g room parts) fun r ws _ =>
      ∃ es, r = es.reverse ++ parts ∧ PartsSpelled 0 es ws ∧ AllOrdered es := by
  induction room generalizing i parts with
  | zero => exact .pure ⟨[], rfl, .nil, trivial⟩
  | succ room ih =>
    refine .bind (finds_skip .comma) fun found vs j _ h => ?_
    cases found with
    | false =>
      obtain ⟨rfl, rfl⟩ := h
      exact .pure ⟨[], rfl, .nil, trivial⟩
    | true =>
      obtain ⟨t, rfl⟩ := h
      refine .bind (hg.inner j) fun e us _ _ he => (ih (e :: parts)).weaken ?_
      rintro _ ws _ _ ⟨es, rfl, hes, hord⟩
      exact ⟨e :: es, by simp, by simpa using .cons he.1 hes, he.2, hord⟩

theorem finds_sequenceRest (hg : g.Sound) {first : Expr} {vs : List Word}
    (hfirst : first.Spelled 0 vs) (hord : first.Ordered) :
    Finds i (sequenceRest g first) fun e ws _ => SequenceSpelled 0 e (vs ++ ws) ∧ e.Ordered := by
  refine .bind finds_remaining fun _ _ _ _ h => ?_
  obtain ⟨-, rfl, rfl⟩ := h
  refine .bind (finds_sequenceParts hg _ []) fun parts ws j _ h => ?_
  obtain ⟨es, rfl, hes, hords⟩ := h
  rw [List.append_nil]
  split
  next hnil =>
    obtain rfl := List.reverse_eq_nil_iff.mp hnil
    cases hes
    exact .pure ⟨.one (by simpa using hfirst), hord⟩
  next last middle hcons =>
    refine .pure ?_
    have hne : es ≠ [] := by
      rintro rfl
      simp at hcons
    rw [← hcons, List.reverse_reverse]
    exact ⟨by simpa using .many hne hfirst hes, hord, hords⟩

theorem finds_innerSequence (hg : g.Sound) :
    Finds i (innerSequence g) fun e ws _ => SequenceSpelled 0 e ws ∧ e.Ordered :=
  .bind (hg.inner i) fun _ _ _ _ h => finds_sequenceRest hg h.1 h.2

theorem finds_delimitedParts (hg : g.Sound) (closing : Symbol) (room : Nat) (parts : List Expr) :
    Finds i (delimitedParts g closing room parts) fun r ws _ =>
      ∃ es us t, r.1 = es.reverse ++ parts ∧ ws = us ++ [⟨.symbol closing, t⟩] ∧
        ItemsSpelled 0 es us ∧ AllOrdered es := by
  induction room generalizing i parts with
  | zero => exact finds_noExpression
  | succ room ih =>
    refine .bind (finds_eat? nofun) fun found vs j _ h => ?_
    cases found with
    | some stop => exact .pure ⟨[], [], stop.text, rfl, by simp [h], .nil, trivial⟩
    | none =>
      obtain ⟨rfl, rfl⟩ := h
      refine .bind (hg.inner j) fun e us k _ he => .bind (finds_skip .comma) fun found vs _ _ h => ?_
      cases found with
      | true =>
        obtain ⟨t, rfl⟩ := h
        refine (ih (e :: parts)).weaken ?_
        rintro ⟨r, span⟩ ws _ _ ⟨es, ws, u, hr, rfl, hes, hord⟩
        exact ⟨e :: es, us ++ ⟨.symbol .comma, t⟩ :: ws, u, by simpa using hr, by simp,
          .cons he.1 hes, he.2, hord⟩
      | false =>
        obtain ⟨rfl, rfl⟩ := h
        refine .bind (finds_symbol closing) fun stop ws _ _ h => .pure ?_
        exact ⟨[e], us, stop.text, rfl, by simp [h], .last he.1, he.2, trivial⟩

theorem finds_delimited (hg : g.Sound) (closing : Symbol) :
    Finds i (delimited g closing) fun r ws _ => ∃ us t, ws = us ++ [⟨.symbol closing, t⟩] ∧
      ItemsSpelled 0 r.1 us ∧ AllOrdered r.1 := by
  refine .bind finds_remaining fun _ _ _ _ h => ?_
  obtain ⟨-, rfl, rfl⟩ := h
  refine .bind (finds_delimitedParts hg closing _ []) fun r ws _ _ h => .pure ?_
  obtain ⟨es, us, t, hr, rfl, hes, hord⟩ := h
  have hr : r.1.reverse = es := by simp [hr]
  exact ⟨us, t, by simp, by rwa [hr], by rwa [hr]⟩

theorem finds_dictEntries (hg : g.Sound) (room : Nat) (entries : List (Expr × Expr)) :
    Finds i (dictEntries g room entries) fun r ws _ =>
      ∃ es us t, r.1 = es.reverse ++ entries ∧ ws = us ++ [⟨.symbol .rightBrace, t⟩] ∧
        EntriesSpelled 0 es us ∧ EntriesOrdered es := by
  induction room generalizing i entries with
  | zero => exact finds_noExpression
  | succ room ih =>
    refine .bind (finds_eat? nofun) fun found vs j _ h => ?_
    cases found with
    | some stop => exact .pure ⟨[], [], stop.text, rfl, by simp [h], .nil, trivial⟩
    | none =>
      obtain ⟨rfl, rfl⟩ := h
      refine .bind (hg.inner j) fun key us _ _ hkey => .bind (finds_symbol .colon)
        fun colon vs k _ h => ?_
      subst h
      refine .bind (hg.inner k) fun value vs k _ hvalue => .bind (finds_skip .comma)
        fun found ws _ _ h => ?_
      cases found with
      | true =>
        obtain ⟨t, rfl⟩ := h
        refine (ih ((key, value) :: entries)).weaken ?_
        rintro ⟨r, span⟩ ws _ _ ⟨es, ws, u, hr, rfl, hes, hord⟩
        exact ⟨(key, value) :: es,
          us ++ ⟨.symbol .colon, colon.text⟩ :: vs ++ ⟨.symbol .comma, t⟩ :: ws, u,
          by simpa using hr, by simp, .cons hkey.1 hvalue.1 hes, hkey.2, hvalue.2, hord⟩
      | false =>
        obtain ⟨rfl, rfl⟩ := h
        refine .bind (finds_symbol .rightBrace) fun stop ws _ _ h => .pure ?_
        exact ⟨[(key, value)], us ++ ⟨.symbol .colon, colon.text⟩ :: vs, stop.text, rfl,
          by simp [h], .last hkey.1 hvalue.1, hkey.2, hvalue.2, trivial⟩

/-! ### Blocks and functions -/

theorem semicolons_append {m n : Nat} {vs ws : List Word} (hv : Semicolons m vs)
    (hw : Semicolons n ws) : Semicolons (m + n) (vs ++ ws) := by
  refine ⟨?_, fun w h => ?_⟩
  · rw [List.length_append]
    exact Nat.add_le_add hv.1 hw.1
  · rcases List.mem_append.mp h with h | h
    · exact hv.2 w h
    · exact hw.2 w h

theorem finds_blockStatements (hg : g.Sound) (room : Nat) (body : List Stmt) :
    Finds i (blockStatements g room body) fun r ws _ =>
      ∃ ss us vs t, r.1 = ss.reverse ++ body ∧ ws = us ++ vs ++ [⟨.symbol .rightBrace, t⟩] ∧
        Semicolons 0 us ∧ BodySpelled 0 ss vs ∧ BodyOrdered ss := by
  induction room generalizing i body with
  | zero => exact .bind finds_next fun _ _ _ _ _ => .fail
  | succ room ih =>
    refine .bind finds_remaining fun _ _ _ _ h => ?_
    obtain ⟨-, rfl, rfl⟩ := h
    refine .bind (finds_skipSemicolons _) fun _ us _ _ hus => .bind (finds_eat? nofun)
      fun found vs j _ h => ?_
    cases found with
    | some stop => exact .pure ⟨[], us, [], stop.text, rfl, by simp [h], hus, .nil, trivial⟩
    | none =>
      obtain ⟨rfl, rfl⟩ := h
      refine .bind (finds_check .eof) fun atEnd vs j _ h => ?_
      obtain ⟨rfl, rfl⟩ := h
      cases atEnd with
      | true => exact .bind finds_next fun _ _ _ _ _ => .fail
      | false =>
        refine .bind (hg.statement j) fun s _ _ _ hs => (ih (s :: body)).weaken ?_
        obtain ⟨xs, ys, rfl, hs, hys, hord⟩ := hs
        rintro ⟨r, span⟩ _ _ _ ⟨ss, us', vs, t, hr, rfl, hus', hss, hords⟩
        -- the semicolons after a statement are read in part with it and in part before the next
        exact ⟨s :: ss, us, xs ++ (ys ++ us') ++ vs, t, by simpa using hr, by simp, hus,
          .cons hs (semicolons_append hys hus') hss, hord, hords⟩

theorem finds_block (hg : g.Sound) :
    Finds i (block g) fun r ws _ => BlockSpelled 0 r.1 ws ∧ BodyOrdered r.1 := by
  refine .bind (finds_symbol .leftBrace) fun start _ _ _ h => ?_
  subst h
  refine .bind finds_remaining fun _ _ _ _ h => ?_
  obtain ⟨-, rfl, rfl⟩ := h
  refine .bind (finds_blockStatements hg _ []) fun r ws _ _ h => .pure ?_
  obtain ⟨ss, us, vs, t, hr, rfl, hus, hss, hord⟩ := h
  have hr : r.1.reverse = ss := by simp [hr]
  refine ⟨?_, by rwa [hr]⟩
  rw [hr]
  simpa using BlockSpelled.mk hus hss

theorem finds_parameterNames (room : Nat) (names : List Ident) :
    Finds i (parameterNames room names) fun r ws _ =>
      ∃ ns, ns ≠ [] ∧ r = ns.reverse ++ names ∧ NamesSpelled ns ws := by
  induction room generalizing i names with
  | zero => exact .bind finds_next fun _ _ _ _ _ => .fail
  | succ room ih =>
    refine .bind finds_ident fun name _ _ _ h => ?_
    subst h
    refine .bind (finds_skip .comma) fun found vs _ _ h => ?_
    cases found with
    | false =>
      obtain ⟨rfl, rfl⟩ := h
      exact .pure ⟨[name], by simp, rfl, .one⟩
    | true =>
      obtain ⟨t, rfl⟩ := h
      refine (ih (name :: names)).weaken ?_
      rintro _ ws _ _ ⟨ns, hne, rfl, hns⟩
      exact ⟨name :: ns, by simp, by simp, .cons hne hns⟩

theorem finds_parameterList : Finds i parameterList fun ns ws _ =>
    ∃ vs t, NamesSpelled ns vs ∧ ws = vs ++ [⟨.symbol .rightParen, t⟩] := by
  refine .bind (finds_skip .rightParen) fun found vs _ _ h => ?_
  cases found with
  | true =>
    obtain ⟨t, rfl⟩ := h
    exact .pure ⟨[], t, .nil, rfl⟩
  | false =>
    obtain ⟨rfl, rfl⟩ := h
    refine .bind finds_remaining fun _ _ _ _ h => ?_
    obtain ⟨-, rfl, rfl⟩ := h
    refine .bind (finds_parameterNames _ []) fun names ws _ _ h => ?_
    obtain ⟨ns, -, rfl, hns⟩ := h
    refine .bind (finds_symbol .rightParen) fun t _ _ _ h => .pure ?_
    exact ⟨ws, t.text, by simpa using hns, by simp [h]⟩

theorem finds_functionRest (hg : g.Sound) (name : Ident) (start : Text.Span) :
    Finds i (functionRest g name start) fun d ws _ =>
      d.name = name ∧ FunctionSpelled 0 d ws ∧ d.Ordered := by
  refine .bind (finds_symbol .leftParen) fun t _ _ _ h => ?_
  subst h
  refine .bind finds_parameterList fun ns _ _ _ h => ?_
  obtain ⟨vs, u, hns, rfl⟩ := h
  refine .bind (finds_block hg) fun r ws _ _ h => .pure ⟨rfl, ?_, h.2⟩
  have hspelled : FunctionSpelled 0 ⟨name, ns, r.1, start.merge r.2⟩
      (⟨.symbol .leftParen, t.text⟩ :: vs ++ ⟨.symbol .rightParen, u⟩ :: ws) := .mk hns h.1
  simpa using hspelled

theorem finds_functionLiteral (hg : g.Sound) (start : Text.Span) :
    Finds i (functionLiteral g start) fun e ws _ => ∃ d, e = .function d ∧
      d.name.name = "<anonymous>" ∧ FunctionSpelled 0 d ws ∧ d.Ordered := by
  refine .bind (finds_functionRest hg _ start) fun d ws _ _ h => .pure ?_
  obtain ⟨hname, hd, hord⟩ := h
  exact ⟨d, rfl, by rw [hname], by simpa using hd, hord⟩

/-! ### Operands -/

/-- An expression that neither begins nor ends with an operator keeps its operands anywhere. -/
theorem placed_of_tight {least : Nat} {e : Expr} {ws : List Word} (hs : e.Spelled 0 ws)
    (ho : e.Ordered) (hl : e.leftPowers = []) (hr : e.rightPowers = []) : Placed least e ws i :=
  ⟨hs, ho, by simp [hl], by simp [hr]⟩

theorem finds_attributeRest {object : Expr} : Finds i (attributeRest object) fun e ws _ =>
    ∃ n s, e = .attr object n s ∧ ws = [⟨.ident, n.name⟩] := by
  refine .bind finds_ident fun n _ _ _ h => .pure ?_
  subst h
  exact ⟨n, _, rfl, rfl⟩

theorem finds_classPath (room : Nat) {type : Expr} {vs : List Word}
    (hs : ClassSpelled 0 type vs) (ho : type.Ordered) (ht : type.isTight) :
    Finds i (classPath room type) fun e ws _ =>
      ClassSpelled 0 e (vs ++ ws) ∧ e.Ordered ∧ e.isTight := by
  induction room generalizing i type vs with
  | zero => exact .pure ⟨by simpa using hs, ho, ht⟩
  | succ room ih =>
    refine .bind (finds_skip .dot) fun found ws _ _ h => ?_
    cases found with
    | false =>
      obtain ⟨rfl, rfl⟩ := h
      exact .pure ⟨by simpa using hs, ho, ht⟩
    | true =>
      obtain ⟨t, rfl⟩ := h
      refine .bind finds_attributeRest fun e _ _ _ h => ?_
      obtain ⟨n, s, rfl, rfl⟩ := h
      have hattr : ClassSpelled 0 (.attr type n s)
          (vs ++ [⟨.symbol .dot, t⟩, ⟨.ident, n.name⟩]) := .attr hs
      exact (ih hattr ⟨ht, ho⟩ rfl).weaken fun e ws _ _ h => by simpa using h

theorem finds_classHead (hg : g.Sound) : Finds i (classHead g) fun e ws _ =>
    ClassSpelled 0 e ws ∧ e.Ordered ∧ e.isTight := by
  refine .bind finds_token fun token _ j _ h => ?_
  split
  next hk =>
    obtain rfl := h _ hk nofun
    exact .pure ⟨.var, trivial, rfl⟩
  next hk =>
    obtain rfl := h _ hk nofun
    refine .bind (hg.inner j) fun e ws _ _ he => .bind (finds_symbol .rightParen)
      fun stop _ _ _ h => .pure ?_
    subst h
    exact ⟨by simpa using ClassSpelled.group he.1, he.2, rfl⟩
  next => exact .fail

theorem finds_classExpr (hg : g.Sound) : Finds i (classExpr g) fun e ws _ =>
    ClassSpelled 0 e ws ∧ e.Ordered ∧ e.isTight := by
  refine .bind (finds_classHead hg) fun head us _ _ hhead => ?_
  refine .bind finds_remaining fun _ _ _ _ h => ?_
  obtain ⟨-, rfl, rfl⟩ := h
  exact finds_classPath _ hhead.1 hhead.2.1 hhead.2.2

theorem finds_createRest (hg : g.Sound) (start : Text.Span) (least : Nat) (t : String) :
    Finds i (createRest g start) fun e ws j =>
      Placed least e (⟨.keyword .newWord, t⟩ :: ws) j := by
  refine .bind (finds_classExpr hg) fun type vs _ _ htype => ?_
  refine .bind (finds_symbol .leftParen) fun u _ _ _ h => ?_
  subst h
  refine .bind (finds_delimited hg .rightParen) fun r _ _ _ h => .pure ?_
  obtain ⟨ws, v, rfl, hes, hord⟩ := h
  have hcreate := Expr.Spelled.create (s := start.merge r.2) (t := t) (u := u.text) (v := v)
    htype.1 hes
  exact placed_of_tight (by simpa using hcreate) ⟨htype.2.2, htype.2.1, hord⟩ rfl rfl

theorem finds_operand (hg : g.Sound) (least : Nat) :
    Finds i (operand g) fun e ws j => Placed least e ws j := by
  refine .bind finds_token fun token _ j _ h => ?_
  dsimp only
  split
  next hk =>
    obtain rfl := h _ hk nofun
    rw [Token.intValue_eq_numeral]
    exact .pure (placed_of_tight .int trivial rfl rfl)
  next hk =>
    obtain rfl := h _ hk nofun
    exact .pure (placed_of_tight .float trivial rfl rfl)
  next hk =>
    obtain rfl := h _ hk nofun
    exact .pure (placed_of_tight .string trivial rfl rfl)
  next hk =>
    obtain rfl := h _ hk nofun
    exact .pure (placed_of_tight .var trivial rfl rfl)
  next hk =>
    obtain rfl := h _ hk nofun
    exact .pure (placed_of_tight .trueWord trivial rfl rfl)
  next hk =>
    obtain rfl := h _ hk nofun
    exact .pure (placed_of_tight .falseWord trivial rfl rfl)
  next hk =>
    obtain rfl := h _ hk nofun
    exact .pure (placed_of_tight .nullWord trivial rfl rfl)
  next hk =>
    obtain rfl := h _ hk nofun
    refine .bind (finds_innerSequence hg) fun inner ws _ _ hinner => ?_
    refine .bind (finds_symbol .rightParen) fun stop _ _ _ h => .pure ?_
    subst h
    exact placed_of_tight (by simpa using Expr.Spelled.group hinner.1) hinner.2 rfl rfl
  next hk =>
    obtain rfl := h _ hk nofun
    refine .bind (finds_delimited hg .rightBracket) fun r _ _ _ h => .pure ?_
    obtain ⟨us, t, rfl, hes, hord⟩ := h
    exact placed_of_tight (by simpa using Expr.Spelled.list hes) hord rfl rfl
  next hk =>
    obtain rfl := h _ hk nofun
    refine .bind finds_remaining fun _ _ _ _ h => ?_
    obtain ⟨-, rfl, rfl⟩ := h
    refine .bind (finds_dictEntries hg _ []) fun r _ _ _ h => .pure ?_
    obtain ⟨es, us, t, hr, rfl, hes, hord⟩ := h
    have hr : r.1.reverse = es := by simp [hr]
    rw [hr]
    exact placed_of_tight (by simpa using Expr.Spelled.dict hes) hord rfl rfl
  next hk =>
    obtain rfl := h _ hk nofun
    refine (finds_functionLiteral hg _).weaken fun e ws _ _ h => ?_
    obtain ⟨d, rfl, hname, hd, hord⟩ := h
    exact placed_of_tight (.function hname hd) hord rfl rfl
  next hk =>
    obtain rfl := h _ hk nofun
    exact finds_createRest hg _ least _
  next =>
    split
    next op hop =>
      obtain rfl := h _ rfl (by rintro heq; rw [heq] at hop; cases hop)
      refine .bind (hg.expression UnaryOp.power j) fun operand ws k _ h => .pure ?_
      obtain ⟨hplaced, hbelow⟩ := h
      refine ⟨by simpa using .unary (UnaryOp.ofKind?_iff.mp hop) hplaced.spelled, ⟨hplaced.left, hplaced.ordered⟩,
        by simp [Expr.leftPowers], fun p hp => ?_⟩
      rcases List.mem_cons.mp hp with rfl | hp
      · exact hbelow
      · exact hplaced.right p hp
    next => exact .fail

/-! ### Operators -/

/-- What an operator makes of the operand before it. -/
theorem extension?_cases {lhs : Expr} {token : Token} {power : Nat} {rest : Parser Expr}
    (h : extension? g lhs token = some (power, rest)) :
    (∃ suffix, Suffix.ofKind? token.kind = some suffix ∧ power = Suffix.power ∧
      rest = suffixRest g suffix lhs) ∨
    (∃ op, BinaryOp.ofKind? token.kind = some op ∧ power = op.power.1 ∧ rest = do
      let rhs ← g.expression op.power.2
      return .binary op lhs rhs (lhs.span.merge rhs.span)) ∨
    (∃ op, LogicOp.ofKind? token.kind = some op ∧ power = op.power.1 ∧ rest = do
      let rhs ← g.expression op.power.2
      return .logic op lhs rhs (lhs.span.merge rhs.span)) ∨
    ∃ op, AssignOp.ofKind? token.kind = some op ∧ power = AssignOp.power.1 ∧ rest =
      match lhs.target? with
      | none => fail .invalidAssignmentTarget token.span
      | some target => do
        let rhs ← g.expression AssignOp.power.2
        return .assign op target rhs (lhs.span.merge rhs.span) := by
  unfold extension? at h
  split at h
  next suffix hk =>
    cases h
    exact .inl ⟨suffix, hk, rfl, rfl⟩
  next =>
  split at h
  next op hk =>
    cases h
    exact .inr (.inl ⟨op, hk, rfl, rfl⟩)
  next =>
  split at h
  next op hk =>
    cases h
    exact .inr (.inr (.inl ⟨op, hk, rfl, rfl⟩))
  next =>
  split at h
  next op hk =>
    cases h
    exact .inr (.inr (.inr ⟨op, hk, rfl, rfl⟩))
  next => cases h

theorem toExpr_of_target? {e : Expr} {target : Target} (h : e.target? = some target) :
    target.toExpr = e := by
  unfold Expr.target? at h
  split at h <;> cases h <;> rfl

/-- Between a suffix and an operator, what comes before goes to the suffix alone. -/
theorem isTight_of_below {e : Expr} {ws : List Word} (hs : e.Spelled 0 ws)
    (h : ∀ p ∈ e.rightPowers, Suffix.power < p) : e.isTight := by
  have hnil : e.rightPowers = [] := by
    refine List.eq_nil_iff_forall_not_mem.mpr fun p hp => ?_
    have hlt := Expr.rightPowers_lt hp
    have hgt := h p hp
    omega
  cases hs <;> first | rfl | cases hnil

variable {least : Nat} {lhs : Expr} {vs : List Word} {token : Token}

theorem finds_suffixRest (hg : g.Sound) {suffix : Suffix}
    (hk : Suffix.ofKind? token.kind = some suffix) (hs : lhs.Spelled 0 vs) (ho : lhs.Ordered)
    (ht : lhs.isTight) : Finds i (suffixRest g suffix lhs) fun e ws j =>
      Placed least e (vs ++ token.word :: ws) j := by
  have hword : token.word = ⟨.symbol suffix.symbol, token.text⟩ := by
    rw [Token.word, Suffix.ofKind?_eq_some.mp hk]
  rw [hword]
  cases suffix with
  | call =>
    refine .bind (finds_delimited hg .rightParen) fun r _ _ _ h => .pure ?_
    obtain ⟨us, t, rfl, hes, hord⟩ := h
    have hcall := Expr.Spelled.call (s := lhs.span.merge r.2) (t := token.text) (u := t) hs hes
    exact placed_of_tight (by simpa [Suffix.symbol] using hcall) ⟨ht, ho, hord⟩ rfl rfl
  | subscript =>
    refine .bind (hg.inner i) fun index ws _ _ hindex => .bind (finds_symbol .rightBracket)
      fun stop _ _ _ h => .pure ?_
    subst h
    have hsubscript := Expr.Spelled.subscript (s := lhs.span.merge stop.span) (t := token.text)
      (u := stop.text) hs hindex.1
    exact placed_of_tight (by simpa [Suffix.symbol] using hsubscript) ⟨ht, ho, hindex.2⟩ rfl rfl
  | dot =>
    refine finds_attributeRest.weaken fun e ws _ _ h => ?_
    obtain ⟨n, s, rfl, rfl⟩ := h
    exact placed_of_tight (by simpa [Suffix.symbol] using .attr hs) ⟨ht, ho⟩ rfl rfl

/-- An operator between operands that keep theirs keeps its own. -/
theorem placed_between {power : Nat × Nat} {e rhs : Expr} {us ws : List Word} {j : Input}
    (hl : Placed least lhs vs i) (hr : Placed power.2 rhs ws j) (hp : least ≤ power.1)
    (hbelow : j.Below power.2) (hs : e.Spelled 0 us) (ho : e.Ordered)
    (hleft : e.leftPowers = power.1 :: lhs.leftPowers)
    (hright : e.rightPowers = power.2 :: rhs.rightPowers) : Placed least e us j := by
  refine ⟨hs, ho, ?_, ?_⟩
  · rw [hleft]
    exact List.forall_mem_cons.mpr ⟨hp, hl.left⟩
  · rw [hright]
    exact List.forall_mem_cons.mpr ⟨hbelow, hr.right⟩

/-- The reader after an operator extends what comes before it. -/
theorem finds_extension (hg : g.Sound) {power : Nat} {rest : Parser Expr} {j : Input}
    (hl : Placed least lhs vs i) (hnext : i.Next token)
    (h : extension? g lhs token = some (power, rest)) (hp : least ≤ power) :
    Finds j rest fun e ws k => Placed least e (vs ++ token.word :: ws) k := by
  have hk : token.kind.leftPower? = some power := by rw [← map_extension? g lhs, h]; rfl
  obtain ⟨suffix, hsuffix, rfl, rfl⟩ | ⟨op, hop, rfl, rfl⟩ | ⟨op, hop, rfl, rfl⟩ |
    ⟨op, hop, rfl, rfl⟩ := extension?_cases h
  · have ht := isTight_of_below hl.spelled fun p hp => hl.right p hp token hnext _ hk
    exact finds_suffixRest hg hsuffix hl.spelled hl.ordered ht
  · refine .bind (hg.expression op.power.2 j) fun rhs ws k _ h => .pure ?_
    obtain ⟨hr, hbelow⟩ := h
    have hfits : Fitting op.power lhs rhs :=
      ⟨fun p hp => hl.right p hp token hnext _ hk, hr.left⟩
    exact placed_between hl hr hp hbelow
      (by simpa [Token.word] using .binary (BinaryOp.ofKind?_iff.mp hop) hl.spelled hr.spelled)
      ⟨hfits, hl.ordered, hr.ordered⟩ rfl rfl
  · refine .bind (hg.expression op.power.2 j) fun rhs ws k _ h => .pure ?_
    obtain ⟨hr, hbelow⟩ := h
    have hfits : Fitting op.power lhs rhs :=
      ⟨fun p hp => hl.right p hp token hnext _ hk, hr.left⟩
    exact placed_between hl hr hp hbelow
      (by simpa [Token.word] using .logic (LogicOp.ofKind?_iff.mp hop) hl.spelled hr.spelled)
      ⟨hfits, hl.ordered, hr.ordered⟩ rfl rfl
  · split
    next => exact .fail
    next target ht =>
      have htarget := toExpr_of_target? ht
      refine .bind (hg.expression AssignOp.power.2 j) fun rhs ws k _ h => .pure ?_
      obtain ⟨hr, hbelow⟩ := h
      have hspelled : target.toExpr.Spelled 0 vs := by rw [htarget]; exact hl.spelled
      have hordered : target.toExpr.Ordered := by rw [htarget]; exact hl.ordered
      have hassign := Expr.Spelled.assign (s := (lhs.span.merge rhs.span)) (t := token.text)
        (AssignOp.ofKind?_iff.mp hop) hspelled hr.spelled
      refine ⟨by simpa [Token.word] using hassign,
        ⟨Target.ordered_toExpr.mp hordered, hr.ordered⟩, ?_, ?_⟩
      · exact List.forall_mem_cons.mpr ⟨hp, by simp⟩
      · exact List.forall_mem_cons.mpr ⟨hbelow, hr.right⟩

theorem finds_extend (hg : g.Sound) (room : Nat) (hroom : i.rest.length ≤ room)
    (hl : Placed least lhs vs i) : Finds i (extend g least room lhs) fun e ws j =>
      Placed least e (vs ++ ws) j ∧ j.Below least := by
  induction room generalizing i lhs vs with
  | zero =>
    intro hi
    have hrest : i.rest = [] := List.length_eq_zero_iff.mp (Nat.le_zero.mp hroom)
    refine Finds.pure ⟨by simpa using hl, fun t ht q hq => ?_⟩ hi
    rcases ht with ⟨-, rfl⟩ | ⟨rest, ht⟩
    · rw [hi] at hq
      cases hq
    · rw [hrest] at ht
      cases ht
  | succ room ih =>
    refine .bind finds_peek fun token _ _ _ h => ?_
    obtain ⟨hnext, rfl, rfl⟩ := h
    have hpower := map_extension? g lhs token
    split
    next hnone =>
      refine .pure ⟨by simpa using hl, fun t ht q hq => ?_⟩
      rw [ht.unique hnext, ← hpower, hnone] at hq
      cases hq
    next power rest hsome =>
      rw [hsome] at hpower
      split
      next hlt =>
        refine .pure ⟨by simpa using hl, fun t ht q hq => ?_⟩
        rw [ht.unique hnext, ← hpower] at hq
        cases hq
        exact hlt
      next hge =>
        have hne : token.kind ≠ .eof := by
          intro heof
          rw [heof] at hpower
          cases hpower
        refine .bind (finds_peeked hnext hne) fun _ _ j hpast h => ?_
        obtain ⟨rfl, rfl⟩ := h
        refine .bind (finds_extension hg hl hnext hsome (Nat.le_of_not_lt hge))
          fun e ws k hpast' hplaced => ?_
        have hlength := hpast.length
        have hlength' := hpast'.length
        simp only [List.length_cons, List.length_nil] at hlength
        refine (ih (by omega) hplaced).weaken fun e us _ _ h => ?_
        simpa using h

theorem finds_expressionFrom (hg : g.Sound) (hl : Placed least lhs vs i) :
    Finds i (expressionFrom g least lhs) fun e ws j =>
      Placed least e (vs ++ ws) j ∧ j.Below least := by
  refine .bind finds_remaining fun n _ _ _ h => ?_
  obtain ⟨rfl, rfl, rfl⟩ := h
  exact finds_extend hg _ (Nat.le_refl _) hl

theorem finds_expressionRule (hg : g.Sound) (least : Nat) :
    Finds i (expressionRule g least) fun e ws j => Placed least e ws j ∧ j.Below least :=
  .bind (finds_operand hg least) fun _ _ _ _ hl => finds_expressionFrom hg hl

end Grammar
end Rill.Syntax
