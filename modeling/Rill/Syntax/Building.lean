import Rill.Syntax.Arena
import Rill.Syntax.Grammar

/-! Expressions read straight into tables.

The rules are those of the grammar. Each places the nodes of what it reads after those that are in the
table, its own node last, and gives the number of that. An operand is known by its number alone: its
place, and what it is as a target, are looked up in the table. -/
namespace Rill.Syntax

open Rill.Syntax.Parser
open Text (Span)

/-- A reader that places nodes in a table. It gives nothing if a node that it looks up is not there. -/
abbrev Builder := StateT Arena (OptionT Parser)

namespace Builder

/-- Places a node after the others, and gives its number. -/
def push (node : Node) (span : Span) : Builder Nat :=
  modifyGet fun a => ((a.push node span).last, a.push node span)

def pushFunction (decl : FunctionDecl) : Builder Nat :=
  modifyGet fun a => ((a.pushFunction decl).last, a.pushFunction decl)

/-- The place of the node with a number, which has to be there. -/
def spanOf (ref : Nat) : Builder Span := do
  match (← get).span? ref with
  | some span => return span
  | none => failure

/-- What the node with a number becomes when it is assigned to. -/
def targetOf? (ref : Nat) : Builder (Option TargetNode) := do
  return (← get).node? ref >>= Node.target?

section

variable (inner : Nat → Builder Nat)

/-- Further parts of a sequence, each after a comma, in reverse. -/
def sequenceParts : (room : Nat) → List Nat → Builder (List Nat)
  | 0, refs => return refs
  | room + 1, refs => do
    if ← skip .comma then
      let ref ← inner 0
      sequenceParts room (ref :: refs)
    else return refs

def sequenceRest (first : Nat) : Builder Nat := do
  match ← sequenceParts inner (← remaining) [] with
  | [] => return first
  | last :: middle =>
    let start ← spanOf first
    let stop ← spanOf last
    push (.sequence (first :: (last :: middle).reverse)) (start.merge stop)

def innerSequence : Builder Nat := do
  let first ← inner 0
  sequenceRest inner first

/-- Expressions between commas up to and including the closing symbol, in reverse, with the place of
that symbol. -/
def delimitedParts (closing : Symbol) : (room : Nat) → List Nat → Builder (List Nat × Span)
  | 0, _ => Grammar.noExpression
  | room + 1, refs => do
    match ← eat? (.symbol closing) with
    | some stop => return (refs, stop.span)
    | none =>
      let ref ← inner 0
      if ← skip .comma then delimitedParts closing room (ref :: refs)
      else
        let stop ← symbol closing
        return (ref :: refs, stop.span)

def delimited (closing : Symbol) : Builder (List Nat × Span) := do
  let (refs, stop) ← delimitedParts inner closing (← remaining) []
  return (refs.reverse, stop)

/-- Entries of a dict up to and including the closing brace, in reverse, with its place. -/
def dictEntries : (room : Nat) → List (Nat × Nat) → Builder (List (Nat × Nat) × Span)
  | 0, _ => Grammar.noExpression
  | room + 1, entries => do
    match ← eat? (.symbol .rightBrace) with
    | some stop => return (entries, stop.span)
    | none =>
      let key ← inner 0
      let _ ← symbol .colon
      let value ← inner 0
      if ← skip .comma then dictEntries room ((key, value) :: entries)
      else
        let stop ← symbol .rightBrace
        return ((key, value) :: entries, stop.span)

def dictLiteral (start : Span) : Builder Nat := do
  let (entries, stop) ← dictEntries inner (← remaining) []
  push (.dict entries.reverse) (start.merge stop)

/-- A function literal after its keyword. The expressions in its body have tables of their own. -/
def functionLiteral (g : Grammar) (start : Span) : Builder Nat := do
  pushFunction (← Grammar.functionRest g ⟨"<anonymous>", start⟩ start)

def attributeRest (object : Nat) : Builder Nat := do
  let start ← spanOf object
  let name ← Grammar.ident
  push (.attr object name) (start.merge name.span)

def classPath : (room : Nat) → Nat → Builder Nat
  | 0, type => return type
  | room + 1, type => do
    if ← skip .dot then
      let type ← attributeRest type
      classPath room type
    else return type

def classHead : Builder Nat := do
  let token ← next
  match token.kind with
  | .ident => push (.atom (.var token.text) token.span) token.span
  | .symbol .leftParen =>
    let ref ← inner 0
    let stop ← symbol .rightParen
    push (.group ref) (token.span.merge stop.span)
  | _ => fail .invalidNewTarget token.span

def classExpr : Builder Nat := do
  let head ← classHead inner
  classPath (← remaining) head

def createRest (start : Span) : Builder Nat := do
  let type ← classExpr inner
  let _ ← symbol .leftParen
  let (arguments, stop) ← delimited inner .rightParen
  push (.create type arguments) (start.merge stop)

/-- An operator and its operand, after the token that should be the operator. -/
def prefixRest (kind : Token.Kind) (start : Span) : Builder Nat := do
  match UnaryOp.ofKind? kind with
  | some op =>
    let ref ← inner UnaryOp.power
    let stop ← spanOf ref
    push (.unary op ref) (start.merge stop)
  | none => fail (.nonExpression kind) start

/-- An expression without infix operators and suffixes. -/
def operand (g : Grammar) : Builder Nat := do
  let token ← next
  let span := token.span
  match token.kind with
  | .int => push (.atom (.int (Int64.ofNat (Token.intValue token.text))) span) span
  | .float => push (.atom (.float (Token.floatValue token.text)) span) span
  | .string => push (.atom (.string (Text.unescape token.text)) span) span
  | .ident => push (.atom (.var token.text) span) span
  | .keyword .trueWord => push (.atom (.bool true) span) span
  | .keyword .falseWord => push (.atom (.bool false) span) span
  | .keyword .nullWord => push (.atom .null span) span
  | .symbol .leftParen =>
    let ref ← innerSequence inner
    let stop ← symbol .rightParen
    push (.group ref) (span.merge stop.span)
  | .symbol .leftBracket =>
    let (elements, stop) ← delimited inner .rightBracket
    push (.list elements) (span.merge stop)
  | .symbol .leftBrace => dictLiteral inner span
  | .keyword .funWord => functionLiteral g span
  | .keyword .newWord => createRest inner span
  | kind => prefixRest inner kind span

/-- A suffix of `object` after its first token. -/
def suffixRest (suffix : Suffix) (object : Nat) : Builder Nat := do
  match suffix with
  | .call =>
    let start ← spanOf object
    let (arguments, stop) ← delimited inner .rightParen
    push (.call object arguments) (start.merge stop)
  | .subscript =>
    let start ← spanOf object
    let index ← inner 0
    let stop ← symbol .rightBracket
    push (.subscript object index) (start.merge stop.span)
  | .dot => attributeRest object

/-- The left operand of an operator and the right one, which binds at least as tightly as `power`. -/
def operands (lhs power : Nat) (node : Nat → Node) : Builder Nat := do
  let rhs ← inner power
  let start ← spanOf lhs
  let stop ← spanOf rhs
  push (node rhs) (start.merge stop)

/-- What an operator after an operand makes of it: the left binding power and the builder of the rest
once the operator has been consumed. -/
def extension? (lhs : Nat) (token : Token) : Option (Nat × Builder Nat) :=
  match Suffix.ofKind? token.kind with
  | some suffix => some (Suffix.power, suffixRest inner suffix lhs)
  | none =>
  match BinaryOp.ofKind? token.kind with
  | some op => some (op.power.1, operands inner lhs op.power.2 (.binary op lhs))
  | none =>
  match LogicOp.ofKind? token.kind with
  | some op => some (op.power.1, operands inner lhs op.power.2 (.logic op lhs))
  | none =>
  match AssignOp.ofKind? token.kind with
  | some op => some (AssignOp.power.1, do
      match ← targetOf? lhs with
      | none => fail .invalidAssignmentTarget token.span
      | some target => operands inner lhs AssignOp.power.2 (.assign op target))
  | none => none

/-- Extends `lhs` by operators that bind at least as tightly as `least`. -/
def extend (least : Nat) : (room : Nat) → Nat → Builder Nat
  | 0, lhs => return lhs
  | room + 1, lhs => do
    let token ← peek
    match extension? inner lhs token with
    | none => return lhs
    | some (power, rest) =>
      if power < least then return lhs
      else
        let _ ← next
        let lhs ← rest
        extend least room lhs

def expressionFrom (least lhs : Nat) : Builder Nat := do
  extend inner least (← remaining) lhs

def expressionRule (g : Grammar) (least : Nat) : Builder Nat := do
  let lhs ← operand inner g
  expressionFrom inner least lhs

def sequenceRule (g : Grammar) : Builder Nat := do
  let first ← expressionRule inner g 0
  sequenceRest inner first

/-- A statement that starts with a function literal, after the keyword of that. -/
def literalRule (g : Grammar) (start : Span) : Builder Nat := do
  let lhs ← functionLiteral g start
  let first ← expressionFrom inner 0 lhs
  sequenceRest inner first

end

/-- Builders for a source of at most `depth` pieces. -/
def ofDepth : (depth : Nat) → (least : Nat) → Builder Nat
  | 0, _ => Grammar.noExpression
  | depth + 1, least => expressionRule (ofDepth depth) (Grammar.ofDepth depth) least

/-- Builds one expression. -/
def expression : Builder Nat := do ofDepth (← remaining) 0

/-- Builds expressions between commas. -/
def sequence : Builder Nat := do
  let first ← expression
  sequenceRest (ofDepth (← remaining)) first

/-- Builds a table of its own, which has to hold the root. -/
def table (x : Builder Nat) : Parser (Option (Nat × Arena)) := do
  match ← (x.run .empty).run with
  | some (root, a) => return if root < a.nodes.size then some (root, a) else none
  | none => return none

end Builder
end Rill.Syntax
