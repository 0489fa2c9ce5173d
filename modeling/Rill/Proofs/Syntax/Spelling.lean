import Mathlib.Data.Nat.Digits.Defs
import Rill.Syntax.Grammar

/-! How programs are spelled: the grammar as a relation between trees and words. -/
namespace Rill

/-- A token without its place. -/
structure Token.Word where
  kind : Token.Kind
  text : String
deriving DecidableEq, Repr

def Token.word (t : Token) : Token.Word := ⟨t.kind, t.text⟩

/-- The number that digits denote in base ten, whatever underscores group them. -/
def Token.numeral (cs : List Char) : Nat :=
  Nat.ofDigits 10 ((cs.filter (· != '_')).reverse.map fun c => c.toNat - '0'.toNat)

/-- Reading digits from the left gives the number that they denote. -/
theorem Token.ofDigits_eq_numeral (cs : List Char) :
    Decimal.ofDigits (cs.filter (· != '_')) = numeral cs := by
  rw [numeral, Nat.ofDigits_eq_foldr, List.foldr_map, List.foldr_reverse, Decimal.ofDigits]
  simp only [Nat.cast_id, Nat.add_comm]

theorem Token.intValue_eq_numeral (text : String) : intValue text = numeral text.toList := by
  rw [intValue, ungrouped, String.toList_ofList, ofDigits_eq_numeral]

/-! ### The tokens of operators -/

/-- The tokens that write an operator. -/
def UnaryOp.kinds : UnaryOp → List Token.Kind
  | plus => [.symbol .plus]
  | minus => [.symbol .minus]
  | tilde => [.symbol .tilde]
  | bang => [.symbol .bang]

@[inherit_doc UnaryOp.kinds]
def BinaryOp.kinds : BinaryOp → List Token.Kind
  | add => [.symbol .plus]
  | sub => [.symbol .minus]
  | mul => [.symbol .star]
  | div => [.symbol .slash]
  | floorDiv => [.symbol .slashSlash]
  | mod => [.symbol .percent]
  | pow => [.symbol .starStar]
  | bitAnd => [.symbol .ampersand]
  | bitOr => [.symbol .pipe]
  | bitXor => [.symbol .caret]
  | shiftLeft => [.symbol .lessLess]
  | shiftRight => [.symbol .greaterGreater]
  | eq => [.symbol .equalEqual]
  | ne => [.symbol .bangEqual]
  | lt => [.symbol .less]
  | le => [.symbol .lessEqual]
  | gt => [.symbol .greater]
  | ge => [.symbol .greaterEqual]

/-- Either of the tokens that write an operator. -/
def LogicOp.kinds : LogicOp → List Token.Kind
  | and => [.keyword .andWord, .symbol .ampersandAmpersand]
  | or => [.keyword .orWord, .symbol .pipePipe]

/-- The tokens that write an assignment. Comparisons have none. -/
def AssignOp.kinds : AssignOp → List Token.Kind
  | plain => [.symbol .equal]
  | inPlace .add => [.symbol .plusEqual]
  | inPlace .sub => [.symbol .minusEqual]
  | inPlace .mul => [.symbol .starEqual]
  | inPlace .pow => [.symbol .starStarEqual]
  | inPlace .div => [.symbol .slashEqual]
  | inPlace .floorDiv => [.symbol .slashSlashEqual]
  | inPlace .mod => [.symbol .percentEqual]
  | inPlace .bitAnd => [.symbol .ampersandEqual]
  | inPlace .bitOr => [.symbol .pipeEqual]
  | inPlace .bitXor => [.symbol .caretEqual]
  | inPlace .shiftLeft => [.symbol .lessLessEqual]
  | inPlace .shiftRight => [.symbol .greaterGreaterEqual]
  | inPlace _ => []

variable {k : Token.Kind}

theorem UnaryOp.ofKind?_iff {op : UnaryOp} : ofKind? k = some op ↔ k ∈ op.kinds := by
  constructor
  · intro h
    unfold ofKind? at h
    split at h <;> cases h <;> decide
  · have hkinds : ∀ k ∈ op.kinds, ofKind? k = some op := by cases op <;> decide
    exact hkinds k

theorem BinaryOp.ofKind?_iff {op : BinaryOp} : ofKind? k = some op ↔ k ∈ op.kinds := by
  constructor
  · intro h
    unfold ofKind? at h
    split at h <;> cases h <;> decide
  · have hkinds : ∀ k ∈ op.kinds, ofKind? k = some op := by cases op <;> decide
    exact hkinds k

theorem LogicOp.ofKind?_iff {op : LogicOp} : ofKind? k = some op ↔ k ∈ op.kinds := by
  constructor
  · intro h
    unfold ofKind? at h
    split at h <;> cases h <;> decide
  · have hkinds : ∀ k ∈ op.kinds, ofKind? k = some op := by cases op <;> decide
    exact hkinds k

theorem AssignOp.ofKind?_iff {op : AssignOp} : ofKind? k = some op ↔ k ∈ op.kinds := by
  constructor
  · intro h
    unfold ofKind? at h
    split at h <;> cases h <;> decide
  · have hkinds : ∀ k ∈ op.kinds, ofKind? k = some op := by
      cases op with
      | plain => decide
      | inPlace op => cases op <;> decide
    exact hkinds k

namespace Syntax

open Token (Word)

/-- At least so many semicolons and nothing else. -/
def Semicolons (least : Nat) (ws : List Word) : Prop :=
  least ≤ ws.length ∧ ∀ w ∈ ws, w.kind = .symbol .semicolon

/-- Names between commas, if any. -/
inductive NamesSpelled : List Ident → List Word → Prop
  | nil : NamesSpelled [] []
  | one {n s} : NamesSpelled [⟨n, s⟩] [⟨.ident, n⟩]
  | cons {n s t ns ws} : ns ≠ [] → NamesSpelled ns ws →
      NamesSpelled (⟨n, s⟩ :: ns) (⟨.ident, n⟩ :: ⟨.symbol .comma, t⟩ :: ws)

/-- The expression that reads what the target writes. -/
def Target.toExpr : Target → Expr
  | .var name => .atom (.var name.name) name.span
  | .attr object name s => .attr object name s
  | .subscript object index s => .subscript object index s

/-- The statements before a loop that starts with this initializer. -/
def initial : Option Expr → List Stmt
  | none => []
  | some e => [.expr e]

-- Each relation says which words spell a part of a program. Every statement in a block has at least
-- `least` semicolons after it.
mutual

/-- An expression without commas of its own. -/
inductive Expr.Spelled (least : Nat) : Expr → List Word → Prop
  | int {t s} :
      Expr.Spelled least (.atom (.int (Int64.ofNat (Token.numeral t.toList))) s) [⟨.int, t⟩]
  | float {t s} : Expr.Spelled least (.atom (.float (Token.floatValue t)) s) [⟨.float, t⟩]
  | string {t s} : Expr.Spelled least (.atom (.string (Text.unescape t)) s) [⟨.string, t⟩]
  | var {t s} : Expr.Spelled least (.atom (.var t) s) [⟨.ident, t⟩]
  | trueWord {t s} : Expr.Spelled least (.atom (.bool true) s) [⟨.keyword .trueWord, t⟩]
  | falseWord {t s} : Expr.Spelled least (.atom (.bool false) s) [⟨.keyword .falseWord, t⟩]
  | nullWord {t s} : Expr.Spelled least (.atom .null s) [⟨.keyword .nullWord, t⟩]
  | group {e s t u ws} : SequenceSpelled least e ws → Expr.Spelled least (.group e s)
      (⟨.symbol .leftParen, t⟩ :: ws ++ [⟨.symbol .rightParen, u⟩])
  | unary {op x s k t ws} : k ∈ op.kinds → Expr.Spelled least x ws →
      Expr.Spelled least (.unary op x s) (⟨k, t⟩ :: ws)
  | binary {op l r s k t vs ws} : k ∈ op.kinds → Expr.Spelled least l vs →
      Expr.Spelled least r ws → Expr.Spelled least (.binary op l r s) (vs ++ ⟨k, t⟩ :: ws)
  | logic {op l r s k t vs ws} : k ∈ op.kinds → Expr.Spelled least l vs →
      Expr.Spelled least r ws → Expr.Spelled least (.logic op l r s) (vs ++ ⟨k, t⟩ :: ws)
  | assign {op target e s k t vs ws} : k ∈ op.kinds →
      Expr.Spelled least target.toExpr vs → Expr.Spelled least e ws →
      Expr.Spelled least (.assign op target e s) (vs ++ ⟨k, t⟩ :: ws)
  | call {f es s t u vs ws} : Expr.Spelled least f vs → ItemsSpelled least es ws →
      Expr.Spelled least (.call f es s)
        (vs ++ ⟨.symbol .leftParen, t⟩ :: ws ++ [⟨.symbol .rightParen, u⟩])
  | create {type es s t u v vs ws} : ClassSpelled least type vs → ItemsSpelled least es ws →
      Expr.Spelled least (.create type es s) (⟨.keyword .newWord, t⟩ :: vs ++
        ⟨.symbol .leftParen, u⟩ :: ws ++ [⟨.symbol .rightParen, v⟩])
  | subscript {o i s t u vs ws} : Expr.Spelled least o vs → Expr.Spelled least i ws →
      Expr.Spelled least (.subscript o i s)
        (vs ++ ⟨.symbol .leftBracket, t⟩ :: ws ++ [⟨.symbol .rightBracket, u⟩])
  | attr {o n s s' t vs} : Expr.Spelled least o vs →
      Expr.Spelled least (.attr o ⟨n, s'⟩ s) (vs ++ [⟨.symbol .dot, t⟩, ⟨.ident, n⟩])
  | function {d t ws} : d.name.name = "<anonymous>" → FunctionSpelled least d ws →
      Expr.Spelled least (.function d) (⟨.keyword .funWord, t⟩ :: ws)
  | list {es s t u ws} : ItemsSpelled least es ws → Expr.Spelled least (.list es s)
      (⟨.symbol .leftBracket, t⟩ :: ws ++ [⟨.symbol .rightBracket, u⟩])
  | dict {es s t u ws} : EntriesSpelled least es ws → Expr.Spelled least (.dict es s)
      (⟨.symbol .leftBrace, t⟩ :: ws ++ [⟨.symbol .rightBrace, u⟩])

/-- The class of which an instance is created: a name or an expression in parentheses, and
attributes of it. -/
inductive ClassSpelled (least : Nat) : Expr → List Word → Prop
  | var {t s} : ClassSpelled least (.atom (.var t) s) [⟨.ident, t⟩]
  | group {e s t u ws} : Expr.Spelled least e ws → ClassSpelled least (.group e s)
      (⟨.symbol .leftParen, t⟩ :: ws ++ [⟨.symbol .rightParen, u⟩])
  | attr {o n s s' t vs} : ClassSpelled least o vs →
      ClassSpelled least (.attr o ⟨n, s'⟩ s) (vs ++ [⟨.symbol .dot, t⟩, ⟨.ident, n⟩])

/-- An expression, or several between commas. -/
inductive SequenceSpelled (least : Nat) : Expr → List Word → Prop
  | one {e ws} : Expr.Spelled least e ws → SequenceSpelled least e ws
  | many {e es s vs ws} : es ≠ [] → Expr.Spelled least e vs → PartsSpelled least es ws →
      SequenceSpelled least (.sequence (e :: es) s) (vs ++ ws)

/-- Expressions with a comma before each. -/
inductive PartsSpelled (least : Nat) : List Expr → List Word → Prop
  | nil : PartsSpelled least [] []
  | cons {e es t vs ws} : Expr.Spelled least e vs → PartsSpelled least es ws →
      PartsSpelled least (e :: es) (⟨.symbol .comma, t⟩ :: vs ++ ws)

/-- Expressions with a comma after each, which the last one may lack. -/
inductive ItemsSpelled (least : Nat) : List Expr → List Word → Prop
  | nil : ItemsSpelled least [] []
  | last {e ws} : Expr.Spelled least e ws → ItemsSpelled least [e] ws
  | cons {e es t vs ws} : Expr.Spelled least e vs → ItemsSpelled least es ws →
      ItemsSpelled least (e :: es) (vs ++ ⟨.symbol .comma, t⟩ :: ws)

/-- Keys and values with a comma after each pair, which the last one may lack. -/
inductive EntriesSpelled (least : Nat) : List (Expr × Expr) → List Word → Prop
  | nil : EntriesSpelled least [] []
  | last {k v t us vs} : Expr.Spelled least k us → Expr.Spelled least v vs →
      EntriesSpelled least [(k, v)] (us ++ ⟨.symbol .colon, t⟩ :: vs)
  | cons {k v es t u us vs ws} : Expr.Spelled least k us → Expr.Spelled least v vs →
      EntriesSpelled least es ws → EntriesSpelled least ((k, v) :: es)
        (us ++ ⟨.symbol .colon, t⟩ :: vs ++ ⟨.symbol .comma, u⟩ :: ws)

/-- Parameters and body of a function. -/
inductive FunctionSpelled (least : Nat) : FunctionDecl → List Word → Prop
  | mk {d t u vs ws} : NamesSpelled d.parameters vs → BlockSpelled least d.body ws →
      FunctionSpelled least d
        (⟨.symbol .leftParen, t⟩ :: vs ++ ⟨.symbol .rightParen, u⟩ :: ws)

/-- Statements in braces. -/
inductive BlockSpelled (least : Nat) : List Stmt → List Word → Prop
  | mk {body t u vs ws} : Semicolons 0 vs → BodySpelled least body ws →
      BlockSpelled least body
        (⟨.symbol .leftBrace, t⟩ :: vs ++ ws ++ [⟨.symbol .rightBrace, u⟩])

/-- Statements with semicolons after each. -/
inductive BodySpelled (least : Nat) : List Stmt → List Word → Prop
  | nil : BodySpelled least [] []
  | cons {s ss us vs ws} : Stmt.Spelled least s us → Semicolons least vs →
      BodySpelled least ss ws → BodySpelled least (s :: ss) (us ++ vs ++ ws)

/-- A sequence that may be left out. -/
inductive OptionSpelled (least : Nat) : Option Expr → List Word → Prop
  | none : OptionSpelled least none []
  | some {e ws} : SequenceSpelled least e ws → OptionSpelled least (some e) ws

/-- A statement without the semicolons after it. -/
inductive Stmt.Spelled (least : Nat) : Stmt → List Word → Prop
  | functionDecl {d t ws} : FunctionSpelled least d ws → Stmt.Spelled least (.functionDecl d)
      (⟨.keyword .funWord, t⟩ :: ⟨.ident, d.name.name⟩ :: ws)
  | moduleDecl {n s s' body t ws} : BlockSpelled least body ws →
      Stmt.Spelled least (.moduleDecl ⟨n, s'⟩ body s)
        (⟨.keyword .moduleWord, t⟩ :: ⟨.ident, n⟩ :: ws)
  | classDecl {n s s' body t ws} : BlockSpelled least body ws →
      Stmt.Spelled least (.classDecl ⟨n, s'⟩ none body s)
        (⟨.keyword .classWord, t⟩ :: ⟨.ident, n⟩ :: ws)
  | subclassDecl {n e s s' body t u v vs ws} : Expr.Spelled least e vs →
      BlockSpelled least body ws → Stmt.Spelled least (.classDecl ⟨n, s'⟩ (some e) body s)
        (⟨.keyword .classWord, t⟩ :: ⟨.ident, n⟩ :: ⟨.symbol .leftParen, u⟩ :: vs ++
          ⟨.symbol .rightParen, v⟩ :: ws)
  | includeFile {s t u} : Stmt.Spelled least (.includeFile (Text.unescape u) s)
      [⟨.keyword .includeWord, t⟩, ⟨.string, u⟩]
  | expr {e ws} : SequenceSpelled least e ws → Stmt.Spelled least (.expr e) ws
  | ifOnly {e s success t vs ws} : Expr.Spelled least e vs → BlockSpelled least success ws →
      Stmt.Spelled least (.ifElse e success none s) (⟨.keyword .ifWord, t⟩ :: vs ++ ws)
  | ifElse {e s success failure t u us vs ws} : Expr.Spelled least e us →
      BlockSpelled least success vs → BlockSpelled least failure ws →
      Stmt.Spelled least (.ifElse e success (some failure) s)
        (⟨.keyword .ifWord, t⟩ :: us ++ vs ++ ⟨.keyword .elseWord, u⟩ :: ws)
  | elseIf {e e' s s' success success' failure t u us vs ws} : Expr.Spelled least e us →
      BlockSpelled least success vs →
      Stmt.Spelled least (.ifElse e' success' failure s') ws →
      Stmt.Spelled least (.ifElse e success (some [.ifElse e' success' failure s']) s)
        (⟨.keyword .ifWord, t⟩ :: us ++ vs ++ ⟨.keyword .elseWord, u⟩ :: ws)
  | whileLoop {e s body t vs ws} : Expr.Spelled least e vs → BlockSpelled least body ws →
      Stmt.Spelled least (.loop (some e) body none false s)
        (⟨.keyword .whileWord, t⟩ :: vs ++ ws)
  | doWhile {e s body t u vs ws} : BlockSpelled least body vs → Expr.Spelled least e ws →
      Stmt.Spelled least (.loop (some e) body none true s)
        (⟨.keyword .doWord, t⟩ :: vs ++ ⟨.keyword .whileWord, u⟩ :: ws)
  | forLoop {i c p s s' body t t₁ t₂ t₃ t₄ us vs ws xs} : OptionSpelled least i us →
      OptionSpelled least c vs → OptionSpelled least p ws → BlockSpelled least body xs →
      Stmt.Spelled least (.block (initial i ++ [.loop c body p false s']) s)
        (⟨.keyword .forWord, t⟩ :: ⟨.symbol .leftParen, t₁⟩ :: us ++
          ⟨.symbol .semicolon, t₂⟩ :: vs ++ ⟨.symbol .semicolon, t₃⟩ :: ws ++
            ⟨.symbol .rightParen, t₄⟩ :: xs)
  | forEach {n e s s' body t u vs ws} : Expr.Spelled least e vs → BlockSpelled least body ws →
      Stmt.Spelled least (.forEach ⟨n, s'⟩ e body s)
        (⟨.keyword .forWord, t⟩ :: ⟨.ident, n⟩ :: ⟨.keyword .inWord, u⟩ :: vs ++ ws)
  | breakLoop {s t} : Stmt.Spelled least (.breakLoop s) [⟨.keyword .breakWord, t⟩]
  | continueLoop {s t} : Stmt.Spelled least (.continueLoop s) [⟨.keyword .continueWord, t⟩]
  | returnNone {s t} : Stmt.Spelled least (.returnValue none s) [⟨.keyword .returnWord, t⟩]
  | returnSome {e s t ws} : SequenceSpelled least e ws →
      Stmt.Spelled least (.returnValue (some e) s) (⟨.keyword .returnWord, t⟩ :: ws)

end

/-- A whole program. -/
def Program.Spelled (least : Nat) (p : Program) (ws : List Word) : Prop :=
  ∃ us vs, Semicolons 0 us ∧ BodySpelled least p vs ∧ ws = us ++ vs

end Syntax
end Rill
