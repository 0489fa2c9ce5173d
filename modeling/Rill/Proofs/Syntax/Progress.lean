import Rill.Proofs.Syntax.Extents
import Rill.Proofs.Syntax.Settling.Rules
import Rill.Proofs.Token.Tiling

/-! Readers come to the end of every source, also when they are called again after a failure. -/
namespace Rill.Syntax

open Token (Piece)
open Rill.Syntax.Parser (Loops)
open Grammar (unbounded)

/-- What can be read from any place of a source on. -/
inductive Entry where
  | statement
  | expression
  | sequence
deriving DecidableEq, Repr

def Entry.read : Entry → Parser Part
  | statement => return .stmt (← Parser.statement)
  | expression => return .expr (← Parser.expression)
  | sequence => return .expr (← Parser.sequence)

namespace Input

/-- What is left after a call, whether or not it succeeds. -/
def afterRead (i : Input) (entry : Entry) : Input :=
  match entry.read i with
  | .ok _ j | .error _ j => j

/-- What is left after some calls one after another. -/
def afterReads (i : Input) (calls : List Entry) : Input := calls.foldl afterRead i

end Input

/-! ### One call -/

namespace Entry

variable {i j : Input}

/-- A call that succeeds consumes a token. -/
theorem read_ok {entry : Entry} {x : Part} (hi : i.Ended) (h : entry.read i = .ok x j) :
    ∃ ts : List Token, ts ≠ [] ∧ i.Cut (ts.map .ok) j := by
  have hpast {ws : List Token.Word} (hpast : i.Past ws j) (hpos : 0 < ws.length) :
      ∃ ts : List Token, ts ≠ [] ∧ i.Cut (ts.map .ok) j := by
    obtain ⟨ts, hts, rfl, hfinish⟩ := hpast
    rw [List.length_map] at hpos
    exact ⟨ts, List.length_pos_iff.mp hpos, hts, hfinish⟩
  cases entry with
  | statement =>
    obtain ⟨s, k, hs, hk⟩ := of_bind_eq_ok h
    cases hk
    obtain ⟨_, hws, us, vs, rfl, hspelled, -⟩ := Parser.finds_statement hi s j hs
    have hpos := hspelled.pos
    exact hpast hws (by rw [List.length_append]; omega)
  | expression =>
    obtain ⟨e, k, he, hk⟩ := of_bind_eq_ok h
    cases hk
    obtain ⟨ws, hws, hspelled, -⟩ := Parser.finds_expression hi e j he
    exact hpast hws hspelled.begins.pos
  | sequence =>
    obtain ⟨e, k, he, hk⟩ := of_bind_eq_ok h
    cases hk
    obtain ⟨ws, hws, hspelled, -⟩ := Parser.finds_sequence hi e j he
    exact hpast hws hspelled.begins.pos

theorem of_map_eq_error {α β : Type} {p : Parser α} {f : α → β} {e : Error}
    (h : (do return f (← p) : Parser β) i = .error e j) : p i = .error e j := by
  cases hp : p i with
  | ok a k =>
    rw [bind_of_ok hp] at h
    cases h
  | error e' k =>
    rw [bind_of_error hp] at h
    cases h
    rfl

/-- A call that fails consumes something, unless nothing is left. -/
theorem read_error {entry : Entry} {e : Error} (hi : i.Ended) (h : entry.read i = .error e j) :
    ∃ ps, i.Cut ps j ∧ (ps ≠ [] ∨ i.rest = []) := by
  have hg := Grammar.settled_unbounded (Nat.le_refl i.rest.length)
  have hstrict {α : Type} {p q : Parser α} (hat : Parser.SettlesAt i True p q)
      (h : q i = .error e j) : ∃ ps, i.Cut ps j ∧ (ps ≠ [] ∨ i.rest = []) := by
    obtain ⟨ps, hcut, hne⟩ := hat.error (hat.agree.trans h)
    exact ⟨ps, hcut, hne trivial⟩
  cases entry with
  | statement => exact hstrict (hg.statement i hi (Nat.le_refl _)) (of_map_eq_error h)
  | expression => exact hstrict (hg.expression 0 i hi (Nat.le_refl _)) (of_map_eq_error h)
  | sequence =>
    have hsequence := of_map_eq_error h
    rw [Parser.sequence_eq hi] at hsequence
    exact hstrict (Grammar.settles_innerSequence hg i hi (Nat.le_refl _)) hsequence

theorem read_of_nil (entry : Entry) (hi : i.Ended) (hrest : i.rest = []) :
    entry.read i = .error ⟨.nonExpression .eof, i.finish.span⟩ i := by
  have hnone := Grammar.noExpression_of_nil (α := Expr) hrest
  have hnone' := Grammar.noExpression_of_nil (α := Stmt) hrest
  rw [hi] at hnone hnone'
  have hexpr : Parser.expression i = .error ⟨.nonExpression .eof, i.finish.span⟩ i := by
    rw [Parser.expression_eq, Grammar.sober_unbounded.expression 0 hi hrest, hnone]
  cases entry with
  | statement =>
    refine bind_of_error ?_
    rw [Parser.statement_eq, Grammar.sober_unbounded.statement hi hrest, hnone']
  | expression => exact bind_of_error hexpr
  | sequence => exact bind_of_error (bind_of_error hexpr)

end Entry

/-! ### Calls one after another -/

namespace Input

variable {i : Input}

/-- A call consumes a piece unless none is left. -/
theorem cut_afterRead (hi : i.Ended) (entry : Entry) :
    ∃ ps, i.Cut ps (i.afterRead entry) ∧ (ps ≠ [] ∨ i.rest = []) := by
  rw [afterRead]
  cases h : entry.read i with
  | ok x j =>
    obtain ⟨ts, hne, hcut⟩ := entry.read_ok hi h
    exact ⟨_, hcut, .inl (by simpa using hne)⟩
  | error e j => exact entry.read_error hi h

/-- As many pieces are consumed as there are calls, while there are any. -/
theorem cut_afterReads (hi : i.Ended) (calls : List Entry) :
    ∃ ps, i.Cut ps (i.afterReads calls) ∧
      (calls.length ≤ ps.length ∨ (i.afterReads calls).rest = []) := by
  induction calls generalizing i with
  | nil => exact ⟨[], .refl i, .inl (Nat.le_refl 0)⟩
  | cons entry calls ih =>
    obtain ⟨ps, hcut, hne⟩ := cut_afterRead hi entry
    obtain ⟨qs, hcut', hlength⟩ := ih (hcut.ended hi)
    refine ⟨ps ++ qs, hcut.trans hcut', ?_⟩
    rcases hne with hne | hrest
    · refine hlength.imp_left fun hle => ?_
      have hpos := List.length_pos_iff.mpr hne
      rw [List.length_append, List.length_cons]
      omega
    · have hnil : (i.afterReads (entry :: calls)).rest = [] := by
        have hsplit := (hcut.trans hcut').1
        rw [hrest] at hsplit
        exact (List.append_eq_nil_iff.mp hsplit.symm).2
      exact .inr hnil

end Input

/-- How the readers of a source go on and come to an end. -/
structure Progress (source : String) : Prop where
  /-- A call that succeeds consumes a token of the source, whatever has been called before. -/
  success {calls : List Entry} {entry : Entry} {x : Part} {j : Input} :
    entry.read ((Input.ofSource source).afterReads calls) = .ok x j →
    ∃ ts : List Token, ts ≠ [] ∧ (∀ t ∈ ts, t.kind ≠ .eof) ∧
      ((Input.ofSource source).afterReads calls).Cut (ts.map .ok) j
  /-- A call that fails consumes a token or a piece that is none, unless it fails at the end. -/
  failure {calls : List Entry} {entry : Entry} {e : Error} {j : Input} :
    entry.read ((Input.ofSource source).afterReads calls) = .error e j →
    ∃ ps, ((Input.ofSource source).afterReads calls).Cut ps j ∧
      (ps ≠ [] ∨ j.rest = [] ∧ e = ⟨.nonExpression .eof, (Token.endOf source).span⟩)
  /-- After as many calls as there are pieces, nothing is left, and so it remains. -/
  exhausted {calls : List Entry} : (Token.pieces source).length ≤ calls.length →
    ((Input.ofSource source).afterReads calls).rest = [] ∧
    ∀ entry : Entry, entry.read ((Input.ofSource source).afterReads calls) =
      .error ⟨.nonExpression .eof, (Token.endOf source).span⟩
        ((Input.ofSource source).afterReads calls)

/-- A grammar is consulted for the inner parts of a rule only where fewer pieces are left: a grammar
that reads alike from there on, however it reads here, makes the same rule. -/
structure Grammar.Descends (g : Grammar) : Prop where
  expression {g' : Grammar} {i : Input} (least : Nat) : i.Ended → SettledBelow i g g' →
    expressionRule g least i = expressionRule g' least i
  statement {g' : Grammar} {i : Input} : i.Ended → SettledBelow i g g' →
    statementRule g i = statementRule g' i
  conditional {g' : Grammar} {i : Input} : i.Ended → i.rest ≠ [] → SettledBelow i g g' →
    conditionalRule g i = conditionalRule g' i

theorem Grammar.descends (g : Grammar) : g.Descends where
  expression least hi h := expressionRule_congr h least hi
  statement hi h := statementRule_congr h hi
  conditional hi hrest h := conditionalRule_congr h hi hrest

/-- The rules nest without a bound, but no rule within itself where as much is left, and every loop of
them consumes a piece in each pass after which it goes on. -/
structure Grammar.Endless (g : Grammar) : Prop where
  descends : g.Descends
  expression {i : Input} (least : Nat) : i.Ended → g.expression least i = expressionRule g least i
  statement {i : Input} : i.Ended → g.statement i = statementRule g i
  conditional {i : Input} : i.Ended → i.rest ≠ [] → g.conditional i = conditionalRule g i
  semicolons : Loops (fun room _ => Parser.skipSemicolons room) Parser.semicolonPass
  sequence : Loops (sequenceParts g) (sequencePass g)
  delimited (closing : Symbol) : Loops (delimitedParts g closing) (delimitedPass g closing)
  entries : Loops (dictEntries g) (entryPass g)
  block : Loops (blockStatements g) (blockPass g)
  parameters : Loops parameterNames parameterPass
  classPath : Loops classPath classPass
  operators (least : Nat) : Loops (extend g least) (operatorPass g least)

theorem endless_unbounded : unbounded.Endless where
  descends := Grammar.descends unbounded
  expression least := Grammar.unbounded_expression least
  statement := Grammar.unbounded_statement
  conditional := Grammar.unbounded_conditional
  semicolons := Parser.loops_skipSemicolons
  sequence := Grammar.loops_sequenceParts Grammar.sober_unbounded.sound
  delimited := Grammar.loops_delimitedParts Grammar.sober_unbounded
  entries := Grammar.loops_dictEntries Grammar.sober_unbounded
  block := Grammar.loops_blockStatements Grammar.sober_unbounded.sound
  parameters := Grammar.loops_parameterNames
  classPath := Grammar.loops_classPath
  operators := Grammar.loops_extend Grammar.sober_unbounded.sound

/-- Calls of the readers one after another come to the end of every source, and each of them is made
of nested rules and of loops that consume the source as they go. -/
theorem readers_progress (source : String) :
    Progress source ∧ unbounded.Endless ∧ Loops Parser.statements Parser.statementPass ∧
      Parser.statement = unbounded.statement ∧ Parser.expression = unbounded.expression 0 ∧
      ∀ i : Input, i.Ended → Parser.sequence i = Grammar.innerSequence unbounded i := by
  have hend : (Input.ofSource source).Ended := rfl
  refine ⟨⟨?_, ?_, ?_⟩, endless_unbounded, Parser.loops_statements, rfl, rfl,
    fun i hi => Parser.sequence_eq hi⟩
  · intro calls entry x j h
    obtain ⟨ps, hcut, -⟩ := Input.cut_afterReads hend calls
    obtain ⟨ts, hne, hts⟩ := entry.read_ok (hcut.ended hend) h
    refine ⟨ts, hne, fun t ht => ?_, hts⟩
    have hmem : .ok t ∈ Token.pieces source := by
      have hsplit : Token.pieces source = _ := (hcut.trans hts).1
      rw [hsplit]
      simp [ht]
    exact Token.kind_ne_eof_of_mem hmem
  · intro calls entry e j h
    obtain ⟨qs, hcut, -⟩ := Input.cut_afterReads hend calls
    have hi := hcut.ended hend
    obtain ⟨ps, hps, hne | hrest⟩ := entry.read_error hi h
    · exact ⟨ps, hps, .inl hne⟩
    · have hfail := entry.read_of_nil hi hrest
      rw [h, hcut.2] at hfail
      cases hfail
      exact ⟨ps, hps, .inr ⟨hrest, rfl⟩⟩
  · intro calls hlength
    obtain ⟨ps, hcut, hps⟩ := Input.cut_afterReads hend calls
    have hsplit : (Token.pieces source).length =
        ps.length + ((Input.ofSource source).afterReads calls).rest.length := by
      rw [← List.length_append, ← hcut.1]
      rfl
    have hrest : ((Input.ofSource source).afterReads calls).rest = [] := by
      rcases hps with hle | hrest
      · exact List.length_eq_zero_iff.mp (by omega)
      · exact hrest
    refine ⟨hrest, fun entry => ?_⟩
    rw [entry.read_of_nil (hcut.ended hend) hrest, hcut.2]
    rfl

end Rill.Syntax
