import Rill.Proofs.Syntax.Completeness.Blocks
import Rill.Proofs.Syntax.Soundness

/-! The loops of readers, pass by pass. Each pass that goes on consumes a piece of the source, so the
bound on the number of passes never ends a loop. -/
namespace Rill.Syntax

open Token (Word Kind)

/-- What one pass of a loop comes to. -/
inductive Pass (σ β : Type) where
  | goOn (state : σ)
  | done (result : β)

namespace Parser

variable {σ β : Type}

/-- What comes after a pass, where `rest` is the rest of the loop. -/
def proceed (rest : σ → Parser β) : Pass σ β → Parser β
  | .goOn s => rest s
  | .done b => return b

/-- Passes one after another until one is the last; `spent` comes after `room` of them. -/
def loop (pass : σ → Parser (Pass σ β)) (spent : σ → Parser β) : (room : Nat) → σ → Parser β
  | 0, s => spent s
  | room + 1, s => do proceed (loop pass spent room) (← pass s)

/-- A pass that goes on consumes a piece, and where nothing is left, a pass ends the loop as having
no room for one does. -/
structure Advances (pass : σ → Parser (Pass σ β)) (spent : σ → Parser β) : Prop where
  goOn {s s' : σ} {i j : Input} : i.Ended → pass s i = .ok (.goOn s') j →
    j.Ended ∧ j.rest.length < i.rest.length
  spent {s : σ} {i : Input} : i.Ended → i.rest = [] →
    (∃ b, pass s i = .ok (.done b) i ∧ spent s i = .ok b i) ∨
    ∃ e j, pass s i = .error e j ∧ spent s i = .error e j

variable {pass : σ → Parser (Pass σ β)} {spent : σ → Parser β} {i : Input}

theorem proceed_congr {rest rest' : σ → Parser β} {s : σ}
    (h : ∀ s' j, pass s i = .ok (.goOn s') j → rest s' j = rest' s' j) :
    (pass s >>= proceed rest) i = (pass s >>= proceed rest') i := by
  cases hpass : pass s i with
  | error e j => rw [bind_of_error hpass, bind_of_error hpass]
  | ok r j =>
    rw [bind_of_ok hpass, bind_of_ok hpass]
    cases r with
    | goOn s' => exact h s' j hpass
    | done b => rfl

theorem goOn_of_finds
    (hpass : ∀ s i, Finds i (pass s) fun r ws _ => ∀ s', r = .goOn s' → ws ≠ []) {s s' : σ}
    {j : Input} (hi : i.Ended) (h : pass s i = .ok (.goOn s') j) :
    j.Ended ∧ j.rest.length < i.rest.length := by
  obtain ⟨ws, hpast, hws⟩ := hpass s i hi _ j h
  have hlength := hpast.length
  have hpos := List.length_pos_iff.mpr (hws s' rfl)
  exact ⟨hpast.ended hi, by omega⟩

namespace Advances

theorem of_nil (h : Advances pass spent) {room : Nat} {s : σ} (hi : i.Ended) (hrest : i.rest = []) :
    loop pass spent room s i = spent s i := by
  cases room with
  | zero => rfl
  | succ room =>
    rcases h.spent hi hrest with ⟨b, hpass, hspent⟩ | ⟨e, j, hpass, hspent⟩
    · rw [hspent]
      exact bind_of_ok hpass
    · rw [hspent]
      exact bind_of_error hpass

/-- With room for every piece that is left, more room makes no difference. -/
theorem stable (h : Advances pass spent) {room room' : Nat} {s : σ} (hi : i.Ended)
    (hroom : i.rest.length ≤ room) (hroom' : i.rest.length ≤ room') :
    loop pass spent room s i = loop pass spent room' s i := by
  induction room generalizing room' s i with
  | zero =>
    have hrest : i.rest = [] := List.length_eq_zero_iff.mp (Nat.le_zero.mp hroom)
    rw [h.of_nil hi hrest, h.of_nil hi hrest]
  | succ room ih =>
    cases room' with
    | zero =>
      have hrest : i.rest = [] := List.length_eq_zero_iff.mp (Nat.le_zero.mp hroom')
      rw [h.of_nil hi hrest, h.of_nil hi hrest]
    | succ room' =>
      refine proceed_congr fun s' j hgo => ?_
      obtain ⟨hj, hlt⟩ := h.goOn hi hgo
      exact ih hj (by omega) (by omega)

/-- A loop is a pass and then the loop again, with room for what is left then. -/
theorem unroll (h : Advances pass spent) {room : Nat} {s : σ} (hi : i.Ended)
    (hroom : i.rest.length ≤ room) : loop pass spent room s i =
      (do proceed (fun s => do loop pass spent (← remaining) s) (← pass s)) i := by
  rw [h.stable hi hroom (Nat.le_succ_of_le hroom)]
  refine proceed_congr fun s' j hgo => ?_
  obtain ⟨hj, hlt⟩ := h.goOn hi hgo
  exact h.stable hj (by omega) (Nat.le_refl _)

end Advances

/-- A reader that is given room for a number of passes is a loop of such passes. -/
structure Loops (run : (room : Nat) → σ → Parser β) (pass : σ → Parser (Pass σ β)) : Prop where
  /-- A pass that goes on consumes a piece. -/
  goOn {s s' : σ} {i j : Input} : i.Ended → pass s i = .ok (.goOn s') j →
    j.Ended ∧ j.rest.length < i.rest.length
  /-- With room for what is left, there is a pass and then the loop again. -/
  unroll {room : Nat} {s : σ} {i : Input} : i.Ended → i.rest.length ≤ room →
    run room s i = (do proceed (fun s => do run (← remaining) s) (← pass s)) i

theorem Advances.loops (h : Advances pass spent) {run : Nat → σ → Parser β}
    (hrun : run = loop pass spent) : Loops run pass := by
  subst hrun
  exact ⟨h.goOn, h.unroll⟩

end Parser

open Rill.Syntax.Parser

/-! ### Semicolons -/

namespace Parser

def semicolonPass : Unit → Parser (Pass Unit Unit) := fun _ => do
  if ← skip .semicolon then return .goOn () else return .done ()

theorem skipSemicolons_eq_loop :
    (fun room _ => skipSemicolons room) = loop semicolonPass fun _ => pure () := by
  funext room s
  induction room with
  | zero => rfl
  | succ room ih =>
    simp only [skipSemicolons, loop, semicolonPass, bind_assoc]
    refine bind_congr fun found => ?_
    cases found with
    | true => simpa [proceed] using ih
    | false => rfl

end Parser

namespace Grammar

variable (g : Grammar)

def sequencePass (parts : List Expr) : Parser (Pass (List Expr) (List Expr)) := do
  if ← skip .comma then
    let part ← g.expression 0
    return .goOn (part :: parts)
  else return .done parts

theorem sequenceParts_eq_loop : sequenceParts g = loop (sequencePass g) pure := by
  funext room parts
  induction room generalizing parts with
  | zero => rfl
  | succ room ih =>
    simp only [sequenceParts, loop, sequencePass, bind_assoc]
    refine bind_congr fun found => ?_
    cases found with
    | true => simp [ih, proceed]
    | false => rfl

def delimitedPass (closing : Symbol) (parts : List Expr) :
    Parser (Pass (List Expr) (List Expr × Text.Span)) := do
  match ← eat? (.symbol closing) with
  | some stop => return .done (parts, stop.span)
  | none =>
    let part ← g.expression 0
    if ← skip .comma then return .goOn (part :: parts)
    else
      let stop ← symbol closing
      return .done (part :: parts, stop.span)

theorem delimitedParts_eq_loop (closing : Symbol) :
    delimitedParts g closing = loop (delimitedPass g closing) fun _ => noExpression := by
  funext room parts
  induction room generalizing parts with
  | zero => rfl
  | succ room ih =>
    simp only [delimitedParts, loop, delimitedPass, bind_assoc]
    refine bind_congr fun found => ?_
    cases found with
    | some stop => rfl
    | none =>
      simp only [bind_assoc]
      refine bind_congr fun part => bind_congr fun found => ?_
      cases found with
      | true => simp [ih, proceed]
      | false => simp [proceed]

def entryPass (entries : List (Expr × Expr)) :
    Parser (Pass (List (Expr × Expr)) (List (Expr × Expr) × Text.Span)) := do
  match ← eat? (.symbol .rightBrace) with
  | some stop => return .done (entries, stop.span)
  | none =>
    let key ← g.expression 0
    let _ ← symbol .colon
    let value ← g.expression 0
    if ← skip .comma then return .goOn ((key, value) :: entries)
    else
      let stop ← symbol .rightBrace
      return .done ((key, value) :: entries, stop.span)

theorem dictEntries_eq_loop : dictEntries g = loop (entryPass g) fun _ => noExpression := by
  funext room entries
  induction room generalizing entries with
  | zero => rfl
  | succ room ih =>
    simp only [dictEntries, loop, entryPass, bind_assoc]
    refine bind_congr fun found => ?_
    cases found with
    | some stop => rfl
    | none =>
      simp only [bind_assoc]
      refine bind_congr fun key => bind_congr fun _ => bind_congr fun value =>
        bind_congr fun found => ?_
      cases found with
      | true => simp [ih, proceed]
      | false => simp [proceed]

/-- A block that is not closed. -/
def unclosed {α : Type} : Parser α := do
  let token ← next
  fail (.unexpectedToken token.kind (.symbol .rightBrace)) token.span

def blockPass (body : List Stmt) : Parser (Pass (List Stmt) (List Stmt × Text.Span)) := do
  skipSemicolons (← remaining)
  match ← eat? (.symbol .rightBrace) with
  | some stop => return .done (body, stop.span)
  | none =>
    if ← check .eof then unclosed
    else
      let statement ← g.statement
      return .goOn (statement :: body)

theorem blockStatements_eq_loop : blockStatements g = loop (blockPass g) fun _ => unclosed := by
  funext room body
  induction room generalizing body with
  | zero => rfl
  | succ room ih =>
    simp only [blockStatements, loop, blockPass, bind_assoc]
    refine bind_congr fun _ => bind_congr fun _ => bind_congr fun found => ?_
    cases found with
    | some stop => rfl
    | none =>
      simp only [bind_assoc]
      refine bind_congr fun atEnd => ?_
      cases atEnd with
      | true =>
        simp only [if_pos, unclosed, bind_assoc]
        exact bind_congr fun _ => rfl
      | false => simp [ih, proceed]

def parameterPass (names : List Ident) : Parser (Pass (List Ident) (List Ident)) := do
  let name ← ident
  if ← skip .comma then return .goOn (name :: names) else return .done (name :: names)

/-- A parameter is missing. -/
def noName {α : Type} : Parser α := do
  let token ← next
  fail (.unexpectedToken token.kind .ident) token.span

theorem parameterNames_eq_loop : parameterNames = loop parameterPass fun _ => noName := by
  funext room names
  induction room generalizing names with
  | zero => rfl
  | succ room ih =>
    simp only [parameterNames, loop, parameterPass, bind_assoc]
    refine bind_congr fun name => bind_congr fun found => ?_
    cases found with
    | true => simp [ih, proceed]
    | false => simp [proceed]

def classPass (type : Expr) : Parser (Pass Expr Expr) := do
  if ← skip .dot then
    let type ← attributeRest type
    return .goOn type
  else return .done type

theorem classPath_eq_loop : classPath = loop classPass pure := by
  funext room type
  induction room generalizing type with
  | zero => rfl
  | succ room ih =>
    simp only [classPath, loop, classPass, bind_assoc]
    refine bind_congr fun found => ?_
    cases found with
    | true => simp [ih, proceed]
    | false => rfl

def operatorPass (least : Nat) (lhs : Expr) : Parser (Pass Expr Expr) := do
  let token ← peek
  match extension? g lhs token with
  | none => return .done lhs
  | some (power, rest) =>
    if power < least then return .done lhs
    else
      let _ ← next
      let lhs ← rest
      return .goOn lhs

theorem extend_eq_loop (least : Nat) : extend g least = loop (operatorPass g least) pure := by
  funext room lhs
  induction room generalizing lhs with
  | zero => rfl
  | succ room ih =>
    simp only [extend, loop, operatorPass, bind_assoc]
    refine bind_congr fun token => ?_
    cases extension? g lhs token with
    | none => rfl
    | some entry =>
      obtain ⟨power, rest⟩ := entry
      by_cases hpower : power < least
      · simp [hpower, proceed]
      · simp [hpower, ih, proceed]

end Grammar

namespace Parser

def statementPass (body : List Stmt) : Parser (Pass (List Stmt) (List Stmt)) := do
  skipSemicolons (← remaining)
  if ← check .eof then return .done body
  else
    let s ← statement
    return .goOn (s :: body)

theorem statements_eq_loop : statements = loop statementPass pure := by
  funext room body
  induction room generalizing body with
  | zero => rfl
  | succ room ih =>
    simp only [statements, loop, statementPass, bind_assoc]
    refine bind_congr fun _ => bind_congr fun _ => bind_congr fun atEnd => ?_
    cases atEnd with
    | true => rfl
    | false => simp [ih, proceed]

end Parser

/-! ### Passes consume -/

namespace Parser

variable {i : Input}

theorem remaining_eq (i : Input) : remaining i = .ok i.rest.length i := rfl

theorem peek_of_nil (hrest : i.rest = []) : peek i = .ok i.finish i := by
  obtain ⟨rest, finish⟩ := i
  subst hrest
  rfl

theorem next_of_nil (hrest : i.rest = []) : next i = .ok i.finish i := by
  obtain ⟨rest, finish⟩ := i
  subst hrest
  rfl

theorem eat?_of_nil (hi : i.Ended) (hrest : i.rest = []) (s : Symbol) :
    eat? (.symbol s) i = .ok none i := by
  have hne : i.finish.kind ≠ .symbol s := by
    rw [hi]
    nofun
  rw [eat?, bind_of_ok (peek_of_nil hrest), if_neg hne]
  rfl

theorem skip_of_nil (hi : i.Ended) (hrest : i.rest = []) (s : Symbol) :
    skip s i = .ok false i := by
  rw [skip, bind_of_ok (eat?_of_nil hi hrest s)]
  rfl

theorem check_eof_of_nil (hi : i.Ended) (hrest : i.rest = []) : check .eof i = .ok true i := by
  rw [check, bind_of_ok (peek_of_nil hrest), hi]
  rfl

theorem skipSemicolons_of_nil (hi : i.Ended) (hrest : i.rest = []) (room : Nat) :
    skipSemicolons room i = .ok () i := by
  cases room with
  | zero => rfl
  | succ room =>
    rw [skipSemicolons, bind_of_ok (skip_of_nil hi hrest _)]
    rfl

theorem loops_skipSemicolons : Loops (fun room _ => skipSemicolons room) semicolonPass := by
  refine Advances.loops ⟨goOn_of_finds fun _ i => ?_, fun hi hrest => ?_⟩ skipSemicolons_eq_loop
  · refine .bind (finds_skip .semicolon) fun found _ _ _ h => ?_
    cases found with
    | true =>
      obtain ⟨t, rfl⟩ := h
      exact .pure fun _ _ => by simp
    | false => exact .pure nofun
  · refine .inl ⟨(), ?_, rfl⟩
    rw [semicolonPass, bind_of_ok (skip_of_nil hi hrest _)]
    rfl

end Parser

namespace Grammar

variable {g : Grammar} {i : Input}

/-- Where nothing is left, the readers of a grammar find no expression. -/
structure Sober (g : Grammar) : Prop where
  sound : g.Sound
  expression (least : Nat) {i : Input} : i.Ended → i.rest = [] →
    g.expression least i = noExpression i
  statement {i : Input} : i.Ended → i.rest = [] → g.statement i = noExpression i

theorem noExpression_of_nil {α : Type} (hrest : i.rest = []) :
    (noExpression : Parser α) i = .error ⟨.nonExpression i.finish.kind, i.finish.span⟩ i := by
  rw [noExpression, bind_of_ok (next_of_nil hrest)]
  rfl

theorem loops_sequenceParts (hg : g.Sound) : Loops (sequenceParts g) (sequencePass g) := by
  refine Advances.loops ⟨goOn_of_finds fun parts i => ?_, fun hi hrest => ?_⟩
    (sequenceParts_eq_loop g)
  · refine .bind (finds_skip .comma) fun found _ j _ h => ?_
    cases found with
    | true =>
      obtain ⟨t, rfl⟩ := h
      exact .bind (hg.inner j) fun _ _ _ _ _ => .pure fun _ _ => by simp
    | false => exact .pure nofun
  · refine .inl ⟨_, ?_, rfl⟩
    rw [sequencePass, bind_of_ok (skip_of_nil hi hrest _)]
    rfl

theorem loops_delimitedParts (hg : g.Sober) (closing : Symbol) :
    Loops (delimitedParts g closing) (delimitedPass g closing) := by
  refine Advances.loops ⟨goOn_of_finds fun parts i => ?_, fun hi hrest => ?_⟩
    (delimitedParts_eq_loop g closing)
  · refine .bind (finds_eat? nofun) fun found _ j _ h => ?_
    cases found with
    | some stop => exact .pure nofun
    | none =>
      refine .bind (hg.sound.inner j) fun _ _ _ _ _ => .bind (finds_skip .comma)
        fun found _ _ _ h => ?_
      cases found with
      | true =>
        obtain ⟨t, rfl⟩ := h
        exact .pure fun _ _ => by simp
      | false => exact .bind (finds_symbol closing) fun _ _ _ _ _ => .pure nofun
  · refine .inr ⟨_, _, ?_, noExpression_of_nil hrest⟩
    rw [delimitedPass, bind_of_ok (eat?_of_nil hi hrest _)]
    refine bind_of_error ?_
    rw [hg.expression 0 hi hrest, noExpression_of_nil hrest]

theorem loops_dictEntries (hg : g.Sober) : Loops (dictEntries g) (entryPass g) := by
  refine Advances.loops ⟨goOn_of_finds fun entries i => ?_, fun hi hrest => ?_⟩
    (dictEntries_eq_loop g)
  · refine .bind (finds_eat? nofun) fun found _ j _ h => ?_
    cases found with
    | some stop => exact .pure nofun
    | none =>
      refine .bind (hg.sound.inner j) fun _ _ _ _ _ => .bind (finds_symbol .colon)
        fun _ _ k _ _ => .bind (hg.sound.inner k) fun _ _ _ _ _ => .bind (finds_skip .comma)
          fun found _ _ _ h => ?_
      cases found with
      | true =>
        obtain ⟨t, rfl⟩ := h
        exact .pure fun _ _ => by simp
      | false => exact .bind (finds_symbol .rightBrace) fun _ _ _ _ _ => .pure nofun
  · refine .inr ⟨_, _, ?_, noExpression_of_nil hrest⟩
    rw [entryPass, bind_of_ok (eat?_of_nil hi hrest _)]
    refine bind_of_error ?_
    rw [hg.expression 0 hi hrest, noExpression_of_nil hrest]

theorem loops_blockStatements (hg : g.Sound) : Loops (blockStatements g) (blockPass g) := by
  refine Advances.loops ⟨goOn_of_finds fun body i => ?_, fun hi hrest => ?_⟩
    (blockStatements_eq_loop g)
  · refine .bind finds_remaining fun _ _ _ _ _ => .bind (finds_skipSemicolons _)
      fun _ _ _ _ _ => .bind (finds_eat? nofun) fun found _ _ _ _ => ?_
    cases found with
    | some stop => exact .pure nofun
    | none =>
      refine .bind (finds_check .eof) fun atEnd _ j _ _ => ?_
      cases atEnd with
      | true => exact .bind finds_next fun _ _ _ _ _ => .fail
      | false =>
        refine .bind (hg.statement j) fun s _ _ _ h => .pure fun _ _ => ?_
        obtain ⟨us, vs, rfl, hs, -⟩ := h
        have hne := List.length_pos_iff.mp hs.pos
        simp [hne]
  · refine .inr ⟨_, _, ?_, bind_of_ok (next_of_nil hrest)⟩
    rw [blockPass, bind_of_ok (remaining_eq _), bind_of_ok (skipSemicolons_of_nil hi hrest _),
      bind_of_ok (eat?_of_nil hi hrest _)]
    refine (bind_of_ok (check_eof_of_nil hi hrest)).trans ?_
    exact bind_of_ok (next_of_nil hrest)

theorem loops_parameterNames : Loops parameterNames parameterPass := by
  refine Advances.loops ⟨goOn_of_finds fun names i => ?_, @fun names i hi hrest => ?_⟩
    parameterNames_eq_loop
  · refine .bind finds_ident fun _ _ _ _ h => .bind (finds_skip .comma) fun found _ _ _ _ => ?_
    subst h
    cases found with
    | true => exact .pure fun _ _ => by simp
    | false => exact .pure nofun
  · refine .inr ⟨_, _, ?_, bind_of_ok (next_of_nil hrest)⟩
    refine bind_of_error (bind_of_error ?_)
    have hne : i.finish.kind ≠ .ident := by rw [hi]; nofun
    rw [expect, bind_of_ok (next_of_nil hrest), if_neg hne]
    rfl

theorem loops_classPath : Loops classPath classPass := by
  refine Advances.loops ⟨goOn_of_finds fun type i => ?_, fun hi hrest => ?_⟩ classPath_eq_loop
  · refine .bind (finds_skip .dot) fun found _ _ _ h => ?_
    cases found with
    | true =>
      obtain ⟨t, rfl⟩ := h
      exact .bind finds_attributeRest fun _ _ _ _ _ => .pure fun _ _ => by simp
    | false => exact .pure nofun
  · refine .inl ⟨_, ?_, rfl⟩
    rw [classPass, bind_of_ok (skip_of_nil hi hrest _)]
    rfl

/-- The end is no operator. -/
theorem extension?_eof (g : Grammar) (lhs : Expr) {token : Token} (h : token.kind = .eof) :
    extension? g lhs token = none := by
  have hmap := map_extension? g lhs token
  rw [h] at hmap
  exact Option.map_eq_none_iff.mp hmap

/-- What comes after an operator is read as any other input is. -/
theorem finds_rest (hg : g.Sound) {lhs : Expr} {token : Token} {power : Nat} {rest : Parser Expr}
    (h : extension? g lhs token = some (power, rest)) : Finds i rest fun _ _ _ => True := by
  obtain ⟨suffix, -, -, rfl⟩ | ⟨op, -, -, rfl⟩ | ⟨op, -, -, rfl⟩ | ⟨op, -, -, rfl⟩ :=
    extension?_cases h
  · cases suffix with
    | call => exact .bind (finds_delimited hg .rightParen) fun _ _ _ _ _ => .pure trivial
    | subscript =>
      exact .bind (hg.inner i) fun _ _ _ _ _ => .bind (finds_symbol .rightBracket)
        fun _ _ _ _ _ => .pure trivial
    | dot => exact finds_attributeRest.weaken fun _ _ _ _ _ => trivial
  · exact .bind (hg.expression _ i) fun _ _ _ _ _ => .pure trivial
  · exact .bind (hg.expression _ i) fun _ _ _ _ _ => .pure trivial
  · split
    next => exact .fail
    next => exact .bind (hg.expression _ i) fun _ _ _ _ _ => .pure trivial

theorem loops_extend (hg : g.Sound) (least : Nat) :
    Loops (extend g least) (operatorPass g least) := by
  refine Advances.loops ⟨goOn_of_finds fun lhs i => ?_, fun hi hrest => ?_⟩
    (extend_eq_loop g least)
  · refine .bind finds_peek fun token _ _ _ h => ?_
    obtain ⟨hnext, rfl, rfl⟩ := h
    split
    next => exact .pure nofun
    next power rest hsome =>
      split
      next => exact .pure nofun
      next =>
        have hne : token.kind ≠ .eof := fun heof => by
          rw [extension?_eof g lhs heof] at hsome
          cases hsome
        refine .bind (finds_peeked hnext hne) fun _ _ j _ h => ?_
        obtain ⟨rfl, rfl⟩ := h
        exact .bind (finds_rest hg hsome) fun _ _ _ _ _ => .pure fun _ _ => by simp
  · refine .inl ⟨_, ?_, rfl⟩
    rw [operatorPass, bind_of_ok (peek_of_nil hrest), extension?_eof g _ hi]
    rfl

end Grammar

namespace Parser

theorem loops_statements : Loops statements statementPass := by
  refine Advances.loops ⟨goOn_of_finds fun body i => ?_, fun hi hrest => ?_⟩ statements_eq_loop
  · refine .bind finds_remaining fun _ _ _ _ _ => .bind (finds_skipSemicolons _)
      fun _ _ _ _ _ => .bind (finds_check .eof) fun atEnd _ _ _ _ => ?_
    cases atEnd with
    | true => exact .pure nofun
    | false =>
      refine .bind finds_statement fun s _ _ _ h => .pure fun _ _ => ?_
      obtain ⟨us, vs, rfl, hs, -⟩ := h
      have hne := List.length_pos_iff.mp hs.pos
      simp [hne]
  · refine .inl ⟨_, ?_, rfl⟩
    rw [statementPass, bind_of_ok (remaining_eq _), bind_of_ok (skipSemicolons_of_nil hi hrest _),
      bind_of_ok (check_eof_of_nil hi hrest)]
    rfl

end Parser
end Rill.Syntax
