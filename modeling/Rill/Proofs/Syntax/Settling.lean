import Rill.Proofs.Syntax.Loops

/-! Readings that do not depend on how deep the grammar is, once it is deep enough, and what a reader
that fails has consumed. -/
namespace Rill.Syntax

open Token (Word Kind Piece)

/-- The pieces between two places of a source. -/
def Input.Cut (i : Input) (ps : List Piece) (j : Input) : Prop :=
  i.rest = ps ++ j.rest ∧ j.finish = i.finish

namespace Input.Cut

variable {i j k : Input} {ps qs : List Piece}

theorem refl (i : Input) : i.Cut [] i := ⟨rfl, rfl⟩

theorem trans (h : i.Cut ps j) (h' : j.Cut qs k) : i.Cut (ps ++ qs) k :=
  ⟨by rw [h.1, h'.1, List.append_assoc], h'.2.trans h.2⟩

theorem ended (h : i.Cut ps j) (hi : i.Ended) : j.Ended := by
  rw [Input.Ended, h.2]
  exact hi

theorem length_le (h : i.Cut ps j) : j.rest.length ≤ i.rest.length := by
  rw [h.1, List.length_append]
  exact Nat.le_add_left _ _

end Input.Cut

namespace Parser

variable {α β : Type} {n : Nat} {s : Prop}

/-- Two readers agree here. What they have not consumed is left, and if they have to be `strict`,
they do not fail without having consumed anything, unless nothing is left. -/
structure SettlesAt (i : Input) (strict : Prop) (p q : Parser α) : Prop where
  agree : p i = q i
  ok {a : α} {j : Input} : p i = .ok a j → ∃ ps, i.Cut ps j
  error {e : Error} {j : Input} : p i = .error e j →
    ∃ ps, i.Cut ps j ∧ (strict → ps ≠ [] ∨ i.rest = [])

/-- The readers agree wherever at most `n` pieces are left. -/
def Settles (n : Nat) (strict : Prop) (p q : Parser α) : Prop :=
  ∀ i : Input, i.Ended → i.rest.length ≤ n → SettlesAt i strict p q

namespace SettlesAt

variable {i : Input}

theorem bind {p q : Parser α} {f f' : α → Parser β} (hp : SettlesAt i s p q)
    (hf : ∀ a ps j, p i = .ok a j → i.Cut ps j → SettlesAt j s (f a) (f' a)) :
    SettlesAt i s (p >>= f) (q >>= f') := by
  cases hpi : p i with
  | error e j =>
    have hqi : q i = .error e j := hp.agree.symm.trans hpi
    refine ⟨by rw [bind_of_error hpi, bind_of_error hqi], ?_, ?_⟩
    · intro b k h
      rw [bind_of_error hpi] at h
      cases h
    · intro e' k h
      rw [bind_of_error hpi] at h
      cases h
      exact hp.error hpi
  | ok a j =>
    have hqi : q i = .ok a j := hp.agree.symm.trans hpi
    obtain ⟨ps, hcut⟩ := hp.ok hpi
    have hfa := hf a ps j hpi hcut
    refine ⟨by rw [bind_of_ok hpi, bind_of_ok hqi, hfa.agree], ?_, ?_⟩
    · intro b k h
      rw [bind_of_ok hpi] at h
      obtain ⟨qs, hqs⟩ := hfa.ok h
      exact ⟨ps ++ qs, hcut.trans hqs⟩
    · intro e' k h
      rw [bind_of_ok hpi] at h
      obtain ⟨qs, hqs, hstrict⟩ := hfa.error h
      refine ⟨ps ++ qs, hcut.trans hqs, fun hs => ?_⟩
      rcases hstrict hs with hne | hnil
      · exact .inl (by simp [hne])
      · -- nothing is left after the first reader, so it has consumed something or nothing was left
        cases ps with
        | nil => exact .inr (by rw [hcut.1, hnil, List.append_nil])
        | cons => exact .inl (by simp)

end SettlesAt

namespace Settles

theorem pure {a : α} : Settles n s (pure a) (pure a) := by
  refine fun i _ _ => ⟨rfl, ?_, nofun⟩
  rintro _ _ ⟨⟩
  exact ⟨[], .refl i⟩

theorem fail {fault : Fault} {span : Text.Span} :
    Settles n False (Parser.fail fault span : Parser α) (Parser.fail fault span) := by
  refine fun i _ _ => ⟨rfl, nofun, ?_⟩
  rintro _ _ ⟨⟩
  exact ⟨[], .refl i, False.elim⟩

theorem bind {p q : Parser α} {f f' : α → Parser β} (hp : Settles n s p q)
    (hf : ∀ a, Settles n s (f a) (f' a)) : Settles n s (p >>= f) (q >>= f') :=
  fun i hi hn => (hp i hi hn).bind fun a _ j _ hcut =>
    hf a j (hcut.ended hi) (Nat.le_trans hcut.length_le hn)

theorem mono {m : Nat} {p q : Parser α} (h : Settles n s p q) (hm : m ≤ n) : Settles m s p q :=
  fun i hi hn => h i hi (Nat.le_trans hn hm)

/-- After a token has been consumed, there is one piece less, and it does not matter how the reader
goes on to fail. -/
theorem next {f f' : Token → Parser β} (hf : ∀ t, Settles (n - 1) False (f t) (f' t)) :
    Settles n s (next >>= f) (next >>= f') := by
  intro i hi hn
  obtain ⟨rest, finish⟩ := i
  match rest with
  | [] =>
    have hfinish := hf finish ⟨[], finish⟩ hi (Nat.zero_le _)
    refine ⟨hfinish.agree, hfinish.ok, fun he => ?_⟩
    obtain ⟨ps, hcut, -⟩ := hfinish.error he
    exact ⟨ps, hcut, fun _ => .inr rfl⟩
  | .ok t :: rest =>
    have hcut : Input.Cut ⟨.ok t :: rest, finish⟩ [.ok t] ⟨rest, finish⟩ := ⟨rfl, rfl⟩
    have ht := hf t ⟨rest, finish⟩ hi (Nat.le_sub_of_add_le hn)
    refine ⟨ht.agree, fun h => ?_, fun h => ?_⟩
    · obtain ⟨ps, hps⟩ := ht.ok h
      exact ⟨_, hcut.trans hps⟩
    · obtain ⟨ps, hps, -⟩ := ht.error h
      exact ⟨_, hcut.trans hps, fun _ => .inl (List.cons_ne_nil _ _)⟩
  | .error e :: rest =>
    refine ⟨rfl, nofun, ?_⟩
    rintro _ _ ⟨⟩
    exact ⟨[.error e], ⟨rfl, rfl⟩, fun _ => .inl (List.cons_ne_nil _ _)⟩

end Settles

theorem settles_remaining : Settles n s remaining remaining := by
  refine fun i _ _ => ⟨rfl, ?_, nofun⟩
  rintro _ _ ⟨⟩
  exact ⟨[], .refl i⟩

theorem settles_peek : Settles n s peek peek := by
  intro i hi hn
  obtain ⟨rest, finish⟩ := i
  match rest with
  | [] =>
    refine ⟨rfl, ?_, nofun⟩
    rintro _ _ ⟨⟩
    exact ⟨[], .refl _⟩
  | .ok t :: rest =>
    refine ⟨rfl, ?_, nofun⟩
    rintro _ _ ⟨⟩
    exact ⟨[], .refl _⟩
  | .error e :: rest =>
    refine ⟨rfl, nofun, ?_⟩
    rintro _ _ ⟨⟩
    exact ⟨[.error e], ⟨rfl, rfl⟩, fun _ => .inl (List.cons_ne_nil _ _)⟩

/-- After a token of a known kind, there is one piece less. -/
theorem Settles.expect {k : Kind} {f f' : Token → Parser β}
    (hf : ∀ t, Settles (n - 1) False (f t) (f' t)) :
    Settles n s (expect k >>= f) (expect k >>= f') := by
  simp only [Parser.expect, bind_assoc]
  refine .next fun t => ?_
  split
  · simpa using hf t
  · exact .fail

theorem settles_expect {k : Kind} : Settles n s (expect k) (expect k) := by
  have h : Settles n s (expect k >>= pure) (expect k >>= pure) := .expect fun _ => .pure
  rwa [bind_pure] at h

theorem settles_symbol (c : Symbol) : Settles n s (symbol c) (symbol c) := settles_expect

theorem settles_eat? {k : Kind} : Settles n s (eat? k) (eat? k) := by
  refine .bind settles_peek fun t => ?_
  split
  · exact .next fun _ => .pure
  · exact .pure

theorem settles_check (k : Kind) : Settles n s (check k) (check k) :=
  .bind settles_peek fun _ => .pure

/-- A token that is seen is left, and so is something of the source. -/
theorem Settles.check {k : Kind} {f f' : Bool → Parser β} (hk : k ≠ .eof)
    (htrue : ∀ i : Input, i.Ended → i.rest.length ≤ n → i.rest ≠ [] →
      SettlesAt i s (f true) (f' true))
    (hfalse : Settles n s (f false) (f' false)) : Settles n s (check k >>= f) (check k >>= f') := by
  refine fun i hi hn => (settles_check k i hi hn).bind fun found ps j hcheck _ => ?_
  obtain ⟨t, u, hpeek, hfound⟩ := of_bind_eq_ok hcheck
  obtain ⟨_, -, hnext, -, rfl⟩ := finds_peek hi t u hpeek
  cases hfound
  by_cases hkind : t.kind = k
  · rw [decide_eq_true hkind]
    refine htrue _ hi hn ?_
    rcases hnext with ⟨-, rfl⟩ | ⟨rest, hrest⟩
    · exact absurd (hkind.symm.trans hi) hk
    · rw [hrest]
      exact List.cons_ne_nil _ _
  · rw [decide_eq_false hkind]
    exact hfalse _ hi hn

theorem settles_skip (c : Symbol) : Settles n s (skip c) (skip c) :=
  .bind settles_eat? fun _ => .pure

/-- After a symbol that has been found, there is one piece less. -/
theorem Settles.skip {c : Symbol} {f f' : Bool → Parser β}
    (htrue : Settles (n - 1) False (f true) (f' true)) (hfalse : Settles n s (f false) (f' false)) :
    Settles n s (skip c >>= f) (skip c >>= f') := by
  simp only [Parser.skip, eat?, bind_assoc]
  refine .bind settles_peek fun t => ?_
  split
  · simp only [bind_assoc, pure_bind]
    exact .next fun _ => htrue
  · simpa using hfalse

theorem settles_skipSemicolons (room : Nat) :
    Settles n s (skipSemicolons room) (skipSemicolons room) := by
  induction room with
  | zero => exact .pure
  | succ room ih =>
    refine .bind (settles_skip _) fun found => ?_
    cases found with
    | true => exact ih
    | false => exact .pure

end Parser

open Rill.Syntax.Parser

/-- Two grammars agree wherever at most `n` pieces are left. A nested `if` is read only where there is
its keyword. -/
structure Grammar.Settled (n : Nat) (g g' : Grammar) : Prop where
  expression (least : Nat) {s : Prop} : Settles n s (g.expression least) (g'.expression least)
  statement {s : Prop} : Settles n s g.statement g'.statement
  conditional {s : Prop} {i : Input} : i.Ended → i.rest.length ≤ n → i.rest ≠ [] →
    SettlesAt i s g.conditional g'.conditional

namespace Grammar

variable {g g' : Grammar} {n : Nat} {s : Prop}

theorem Settled.mono {m : Nat} (h : g.Settled n g') (hm : m ≤ n) : g.Settled m g' :=
  ⟨fun least _ => (h.expression least).mono hm, h.statement.mono hm,
    fun hi hn => h.conditional hi (Nat.le_trans hn hm)⟩

theorem settles_noExpression {α : Type} :
    Settles n s (noExpression : Parser α) noExpression :=
  .next fun _ => .fail

theorem settles_unclosed {α : Type} : Settles n s (unclosed : Parser α) unclosed :=
  .next fun _ => .fail

theorem settles_ident : Settles n s ident ident := .bind (settles_expect) fun _ => .pure

/-! ### Lists of expressions -/

theorem settles_sequenceParts (hg : g.Settled n g') (room : Nat) (parts : List Expr) :
    Settles (n + 1) s (sequenceParts g room parts) (sequenceParts g' room parts) := by
  induction room generalizing parts s with
  | zero => exact .pure
  | succ room ih =>
    refine .skip ?_ .pure
    exact .bind (hg.expression 0) fun e => (ih (e :: parts)).mono (Nat.le_succ n)

theorem settles_sequenceRest (hg : g.Settled n g') (first : Expr) :
    Settles (n + 1) s (sequenceRest g first) (sequenceRest g' first) := by
  refine .bind settles_remaining fun room =>
    .bind (settles_sequenceParts hg room []) fun parts => ?_
  split <;> exact .pure

theorem settles_innerSequence (hg : g.Settled n g') :
    Settles n s (innerSequence g) (innerSequence g') :=
  .bind (hg.expression 0) fun first => (settles_sequenceRest hg first).mono (Nat.le_succ n)

theorem settles_delimitedParts (hg : g.Settled n g') (closing : Symbol) (room : Nat)
    (parts : List Expr) :
    Settles n s (delimitedParts g closing room parts) (delimitedParts g' closing room parts) := by
  induction room generalizing parts with
  | zero => exact settles_noExpression
  | succ room ih =>
    refine .bind settles_eat? fun found => ?_
    cases found with
    | some stop => exact .pure
    | none =>
      refine .bind (hg.expression 0) fun e => .bind (settles_skip _) fun found => ?_
      cases found with
      | true => exact ih (e :: parts)
      | false => exact .bind (settles_symbol closing) fun _ => .pure

theorem settles_delimited (hg : g.Settled n g') (closing : Symbol) :
    Settles n s (delimited g closing) (delimited g' closing) :=
  .bind settles_remaining fun room => .bind (settles_delimitedParts hg closing room [])
    fun _ => .pure

theorem settles_dictEntries (hg : g.Settled n g') (room : Nat) (entries : List (Expr × Expr)) :
    Settles n s (dictEntries g room entries) (dictEntries g' room entries) := by
  induction room generalizing entries with
  | zero => exact settles_noExpression
  | succ room ih =>
    refine .bind settles_eat? fun found => ?_
    cases found with
    | some stop => exact .pure
    | none =>
      refine .bind (hg.expression 0) fun key => .bind (settles_symbol .colon) fun _ =>
        .bind (hg.expression 0) fun value => .bind (settles_skip _) fun found => ?_
      cases found with
      | true => exact ih ((key, value) :: entries)
      | false => exact .bind (settles_symbol .rightBrace) fun _ => .pure

theorem settles_dictLiteral (hg : g.Settled n g') (start : Text.Span) :
    Settles n s (dictLiteral g start) (dictLiteral g' start) :=
  .bind settles_remaining fun room => .bind (settles_dictEntries hg room []) fun _ => .pure

/-! ### Blocks and functions -/

theorem settles_blockStatements (hg : g.Settled n g') (room : Nat) (body : List Stmt) :
    Settles n s (blockStatements g room body) (blockStatements g' room body) := by
  induction room generalizing body with
  | zero => exact settles_unclosed
  | succ room ih =>
    refine .bind settles_remaining fun rest => .bind (settles_skipSemicolons rest) fun _ =>
      .bind settles_eat? fun found => ?_
    cases found with
    | some stop => exact .pure
    | none =>
      refine .bind (settles_check .eof) fun atEnd => ?_
      cases atEnd with
      | true => exact settles_unclosed
      | false => exact .bind hg.statement fun statement => ih (statement :: body)

theorem settles_block (hg : g.Settled n g') : Settles n s (block g) (block g') :=
  .bind (settles_symbol .leftBrace) fun _ => .bind settles_remaining fun room =>
    .bind (settles_blockStatements hg room []) fun _ => .pure

theorem settles_parameterNames (room : Nat) (names : List Ident) :
    Settles n s (parameterNames room names) (parameterNames room names) := by
  induction room generalizing names with
  | zero => exact .next fun _ => .fail
  | succ room ih =>
    refine .bind settles_ident fun name => .bind (settles_skip _) fun found => ?_
    cases found with
    | true => exact ih (name :: names)
    | false => exact .pure

theorem settles_parameterList : Settles n s parameterList parameterList := by
  refine .bind (settles_skip _) fun found => ?_
  cases found with
  | true => exact .pure
  | false =>
    exact .bind settles_remaining fun room => .bind (settles_parameterNames room []) fun _ =>
      .bind (settles_symbol .rightParen) fun _ => .pure

theorem settles_functionRest (hg : g.Settled n g') (name : Ident) (start : Text.Span) :
    Settles n s (functionRest g name start) (functionRest g' name start) :=
  .bind (settles_symbol .leftParen) fun _ => .bind settles_parameterList fun _ =>
    .bind (settles_block hg) fun _ => .pure

theorem settles_functionLiteral (hg : g.Settled n g') (start : Text.Span) :
    Settles n s (functionLiteral g start) (functionLiteral g' start) :=
  .bind (settles_functionRest hg _ start) fun _ => .pure

end Grammar
end Rill.Syntax
