import Rill.Syntax.Parser
import Rill.Syntax.Tree
import Rill.Text.Quoted
import Rill.Token.Printer

/-! The grammar of programs, by recursive descent with binding powers for operators.

Each rule takes the grammar of what may stand inside it. A rule uses that inner grammar only after it
has consumed a piece of the source, so the nesting is never deeper than the source is long. -/
namespace Rill.Syntax

open Rill.Syntax.Parser
open Text (Span)

/-- Readers for the parts of a program that nest. -/
structure Grammar where
  /-- An expression whose operators bind at least as tightly as the given power. -/
  expression : Nat → Parser Expr
  statement : Parser Stmt
  /-- An `if` statement without the semicolon after it. -/
  conditional : Parser Stmt

namespace Grammar

/-- Fails at the next token, which starts no expression. -/
def noExpression {α : Type} : Parser α := do
  let token ← next
  fail (.nonExpression token.kind) token.span

/-- The grammar for a source of which nothing is left. -/
def empty : Grammar := ⟨fun _ => noExpression, noExpression, noExpression⟩

def ident : Parser Ident := do
  let token ← expect .ident
  return ⟨token.text, token.span⟩

/-- Further parts of a sequence, each after a comma, in reverse. -/
def sequenceParts (g : Grammar) : (room : Nat) → List Expr → Parser (List Expr)
  | 0, parts => return parts
  | room + 1, parts => do
    if ← skip .comma then
      let part ← g.expression 0
      sequenceParts g room (part :: parts)
    else return parts

/-- The rest of a sequence after its first part. Without a comma there is no sequence. -/
def sequenceRest (g : Grammar) (first : Expr) : Parser Expr := do
  match ← sequenceParts g (← remaining) [] with
  | [] => return first
  | last :: middle =>
    return .sequence (first :: (last :: middle).reverse) (first.span.merge last.span)

/-- Expressions between commas inside of something. -/
def innerSequence (g : Grammar) : Parser Expr := do
  let first ← g.expression 0
  sequenceRest g first

/-- Expressions between commas up to and including the closing symbol, in reverse, with the place of
that symbol. A comma may stand before it. -/
def delimitedParts (g : Grammar) (closing : Symbol) :
    (room : Nat) → List Expr → Parser (List Expr × Span)
  | 0, _ => noExpression
  | room + 1, parts => do
    match ← eat? (.symbol closing) with
    | some stop => return (parts, stop.span)
    | none =>
      let part ← g.expression 0
      if ← skip .comma then delimitedParts g closing room (part :: parts)
      else
        let stop ← symbol closing
        return (part :: parts, stop.span)

def delimited (g : Grammar) (closing : Symbol) : Parser (List Expr × Span) := do
  let (parts, stop) ← delimitedParts g closing (← remaining) []
  return (parts.reverse, stop)

/-- Entries of a dict up to and including the closing brace, in reverse, with its place. -/
def dictEntries (g : Grammar) :
    (room : Nat) → List (Expr × Expr) → Parser (List (Expr × Expr) × Span)
  | 0, _ => noExpression
  | room + 1, entries => do
    match ← eat? (.symbol .rightBrace) with
    | some stop => return (entries, stop.span)
    | none =>
      let key ← g.expression 0
      let _ ← symbol .colon
      let value ← g.expression 0
      if ← skip .comma then dictEntries g room ((key, value) :: entries)
      else
        let stop ← symbol .rightBrace
        return ((key, value) :: entries, stop.span)

def dictLiteral (g : Grammar) (start : Span) : Parser Expr := do
  let (entries, stop) ← dictEntries g (← remaining) []
  return .dict entries.reverse (start.merge stop)

/-- Statements up to and including the closing brace, in reverse, with its place. -/
def blockStatements (g : Grammar) : (room : Nat) → List Stmt → Parser (List Stmt × Span)
  | 0, _ => do
    let token ← next
    fail (.unexpectedToken token.kind (.symbol .rightBrace)) token.span
  | room + 1, body => do
    skipSemicolons (← remaining)
    match ← eat? (.symbol .rightBrace) with
    | some stop => return (body, stop.span)
    | none =>
      if ← check .eof then
        let token ← next
        fail (.unexpectedToken token.kind (.symbol .rightBrace)) token.span
      else
        let statement ← g.statement
        blockStatements g room (statement :: body)

/-- Statements in braces, with the place of the whole. -/
def block (g : Grammar) : Parser (List Stmt × Span) := do
  let start ← symbol .leftBrace
  let (body, stop) ← blockStatements g (← remaining) []
  return (body.reverse, start.span.merge stop)

/-- Names between commas, at least one, in reverse. -/
def parameterNames : (room : Nat) → List Ident → Parser (List Ident)
  | 0, _ => do
    let token ← next
    fail (.unexpectedToken token.kind .ident) token.span
  | room + 1, names => do
    let name ← ident
    if ← skip .comma then parameterNames room (name :: names) else return name :: names

/-- Names between commas, if any, up to and including the closing parenthesis. -/
def parameterList : Parser (List Ident) := do
  if ← skip .rightParen then return []
  else
    let names ← parameterNames (← remaining) []
    let _ ← symbol .rightParen
    return names.reverse

/-- Parameters and body of the function `name`, whose declaration begins at `start`. -/
def functionRest (g : Grammar) (name : Ident) (start : Span) : Parser FunctionDecl := do
  let _ ← symbol .leftParen
  let parameters ← parameterList
  let (body, stop) ← block g
  return ⟨name, parameters, body, start.merge stop⟩

/-- A function literal after its keyword. -/
def functionLiteral (g : Grammar) (start : Span) : Parser Expr := do
  return .function (← functionRest g ⟨"<anonymous>", start⟩ start)

/-- An attribute of `object` after the dot. -/
def attributeRest (object : Expr) : Parser Expr := do
  let name ← ident
  return .attr object name (object.span.merge name.span)

/-- Attributes after the name of a class. -/
def classPath : (room : Nat) → Expr → Parser Expr
  | 0, type => return type
  | room + 1, type => do
    if ← skip .dot then
      let type ← attributeRest type
      classPath room type
    else return type

/-- The name of a class, or an expression in parentheses. -/
def classHead (g : Grammar) : Parser Expr := do
  let token ← next
  match token.kind with
  | .ident => return .atom (.var token.text) token.span
  | .symbol .leftParen =>
    let inner ← g.expression 0
    let stop ← symbol .rightParen
    return .group inner (token.span.merge stop.span)
  | _ => fail .invalidNewTarget token.span

/-- The class of which an instance is created. -/
def classExpr (g : Grammar) : Parser Expr := do
  let head ← classHead g
  classPath (← remaining) head

/-- The creation of an instance after its keyword. -/
def createRest (g : Grammar) (start : Span) : Parser Expr := do
  let type ← classExpr g
  let _ ← symbol .leftParen
  let (arguments, stop) ← delimited g .rightParen
  return .create type arguments (start.merge stop)

/-- An expression without infix operators and suffixes. -/
def operand (g : Grammar) : Parser Expr := do
  let token ← next
  let span := token.span
  match token.kind with
  | .int => return .atom (.int (Int64.ofNat (Token.intValue token.text))) span
  | .float => return .atom (.float (Token.floatValue token.text)) span
  | .string => return .atom (.string (Text.unescape token.text)) span
  | .ident => return .atom (.var token.text) span
  | .keyword .trueWord => return .atom (.bool true) span
  | .keyword .falseWord => return .atom (.bool false) span
  | .keyword .nullWord => return .atom .null span
  | .symbol .leftParen =>
    let inner ← innerSequence g
    let stop ← symbol .rightParen
    return .group inner (span.merge stop.span)
  | .symbol .leftBracket =>
    let (elements, stop) ← delimited g .rightBracket
    return .list elements (span.merge stop)
  | .symbol .leftBrace => dictLiteral g span
  | .keyword .funWord => functionLiteral g span
  | .keyword .newWord => createRest g span
  | kind =>
    match UnaryOp.ofKind? kind with
    | some op =>
      let operand ← g.expression UnaryOp.power
      return .unary op operand (span.merge operand.span)
    | none => fail (.nonExpression kind) span

/-- A suffix of `object` after its first token. -/
def suffixRest (g : Grammar) (suffix : Suffix) (object : Expr) : Parser Expr := do
  match suffix with
  | .call =>
    let (arguments, stop) ← delimited g .rightParen
    return .call object arguments (object.span.merge stop)
  | .subscript =>
    let index ← g.expression 0
    let stop ← symbol .rightBracket
    return .subscript object index (object.span.merge stop.span)
  | .dot => attributeRest object

/-- What an operator after an operand makes of it: the left binding power and the reader of the rest
once the operator has been consumed. -/
def extension? (g : Grammar) (lhs : Expr) (token : Token) : Option (Nat × Parser Expr) :=
  match Suffix.ofKind? token.kind with
  | some suffix => some (Suffix.power, suffixRest g suffix lhs)
  | none =>
  match BinaryOp.ofKind? token.kind with
  | some op => some (op.power.1, do
      let rhs ← g.expression op.power.2
      return .binary op lhs rhs (lhs.span.merge rhs.span))
  | none =>
  match LogicOp.ofKind? token.kind with
  | some op => some (op.power.1, do
      let rhs ← g.expression op.power.2
      return .logic op lhs rhs (lhs.span.merge rhs.span))
  | none =>
  match AssignOp.ofKind? token.kind with
  | some op => some (AssignOp.power.1,
      match lhs.target? with
      | none => fail .invalidAssignmentTarget token.span
      | some target => do
        let rhs ← g.expression AssignOp.power.2
        return .assign op target rhs (lhs.span.merge rhs.span))
  | none => none

/-- Extends `lhs` by operators that bind at least as tightly as `least`. -/
def extend (g : Grammar) (least : Nat) : (room : Nat) → Expr → Parser Expr
  | 0, lhs => return lhs
  | room + 1, lhs => do
    let token ← peek
    match extension? g lhs token with
    | none => return lhs
    | some (power, rest) =>
      if power < least then return lhs
      else
        let _ ← next
        let lhs ← rest
        extend g least room lhs

/-- An expression of which the first operand has been read. -/
def expressionFrom (g : Grammar) (least : Nat) (lhs : Expr) : Parser Expr := do
  extend g least (← remaining) lhs

/-- An expression whose operators bind at least as tightly as `least`. -/
def expressionRule (g : Grammar) (least : Nat) : Parser Expr := do
  let lhs ← operand g
  expressionFrom g least lhs

/-- Expressions between commas. -/
def sequenceRule (g : Grammar) : Parser Expr := do
  let first ← expressionRule g 0
  sequenceRest g first

/-- A sequence inside a statement, unless the terminator comes first. -/
def sequenceUnless (g : Grammar) (terminator : Symbol) : Parser (Option Expr) := do
  if ← check (.symbol terminator) then return none
  else return some (← innerSequence g)

def includeRule : Parser Stmt := do
  let start ← keyword .includeWord
  let path ← expect .string
  return .includeFile (Text.unescape path.text) (start.span.merge path.span)

/-- A `return` has no value before a semicolon, a closing brace or the end. -/
def returnRule (g : Grammar) : Parser Stmt := do
  let start ← keyword .returnWord
  match (← peek).kind with
  | .symbol .rightBrace | .symbol .semicolon | .eof => return .returnValue none start.span
  | _ =>
    let value ← innerSequence g
    return .returnValue (some value) (start.span.merge value.span)

def conditionalRule (g : Grammar) : Parser Stmt := do
  let start ← keyword .ifWord
  let condition ← g.expression 0
  let (success, stop) ← block g
  let span := start.span.merge stop
  if (← eat? (.keyword .elseWord)).isNone then return .ifElse condition success none span
  else if ← check (.keyword .ifWord) then
    let nested ← g.conditional
    return .ifElse condition success (some [nested]) (span.merge nested.span)
  else
    let (failure, stop) ← block g
    return .ifElse condition success (some failure) (span.merge stop)

def whileRule (g : Grammar) : Parser Stmt := do
  let start ← keyword .whileWord
  let condition ← g.expression 0
  let (body, stop) ← block g
  return .loop (some condition) body none false (start.span.merge stop)

def doWhileRule (g : Grammar) : Parser Stmt := do
  let start ← keyword .doWord
  let (body, _) ← block g
  let _ ← keyword .whileWord
  let condition ← g.expression 0
  return .loop (some condition) body none true (start.span.merge condition.span)

/-- A loop over the elements of a value, or one with an initializer, a condition and a step in
parentheses. The latter is the initializer followed by a plain loop. -/
def forRule (g : Grammar) : Parser Stmt := do
  let start ← keyword .forWord
  if ← skip .leftParen then
    let initializer ← sequenceUnless g .semicolon
    let _ ← symbol .semicolon
    let condition ← sequenceUnless g .semicolon
    let _ ← symbol .semicolon
    let step ← sequenceUnless g .rightParen
    let _ ← symbol .rightParen
    let (body, stop) ← block g
    let span := start.span.merge stop
    let loop := Stmt.loop condition body step false span
    match initializer with
    | some e => return .block [.expr e, loop] span
    | none => return .block [loop] span
  else
    let element ← ident
    let _ ← keyword .inWord
    let iterable ← g.expression 0
    let (body, stop) ← block g
    return .forEach element iterable body (start.span.merge stop)

def moduleRule (g : Grammar) : Parser Stmt := do
  let start ← keyword .moduleWord
  let name ← ident
  let (body, stop) ← block g
  return .moduleDecl name body (start.span.merge stop)

/-- An expression in parentheses, if any. -/
def superclass? (g : Grammar) : Parser (Option Expr) := do
  if ← skip .leftParen then
    let superclass ← g.expression 0
    let _ ← symbol .rightParen
    return some superclass
  else return none

def classRule (g : Grammar) : Parser Stmt := do
  let start ← keyword .classWord
  let name ← ident
  let superclass ← superclass? g
  let (body, stop) ← block g
  return .classDecl name superclass body (start.span.merge stop)

/-- A declaration, or an expression that starts with a function literal. -/
def functionRule (g : Grammar) : Parser Stmt := do
  let start ← keyword .funWord
  if ← check (.symbol .leftParen) then
    let lhs ← functionLiteral g start.span
    let first ← expressionFrom g 0 lhs
    return .expr (← sequenceRest g first)
  else
    let name ← ident
    return .functionDecl (← functionRest g name start.span)

/-- A statement without the semicolon after it. -/
def bareStatement (g : Grammar) : Parser Stmt := do
  let token ← peek
  match token.kind with
  | .keyword .includeWord => includeRule
  | .keyword .returnWord => returnRule g
  | .keyword .ifWord => conditionalRule g
  | .keyword .whileWord => whileRule g
  | .keyword .doWord => doWhileRule g
  | .keyword .forWord => forRule g
  | .keyword .breakWord =>
    let _ ← next
    return .breakLoop token.span
  | .keyword .continueWord =>
    let _ ← next
    return .continueLoop token.span
  | .keyword .moduleWord => moduleRule g
  | .keyword .classWord => classRule g
  | .keyword .funWord => functionRule g
  | _ => return .expr (← sequenceRule g)

def statementRule (g : Grammar) : Parser Stmt := do
  let statement ← bareStatement g
  let _ ← skip .semicolon
  return statement

/-- The grammar for a source of at most `depth` pieces. -/
def ofDepth : (depth : Nat) → Grammar
  | 0 => empty
  | depth + 1 =>
    { expression := fun least input => expressionRule (ofDepth depth) least input
      statement := fun input => statementRule (ofDepth depth) input
      conditional := fun input => conditionalRule (ofDepth depth) input }

end Grammar

namespace Parser

/-- Reads one expression. -/
def expression : Parser Expr := do (Grammar.ofDepth (← remaining)).expression 0

/-- Reads expressions between commas. -/
def sequence : Parser Expr := do
  let first ← expression
  Grammar.sequenceRest (Grammar.ofDepth (← remaining)) first

/-- Reads one statement. -/
def statement : Parser Stmt := do (Grammar.ofDepth (← remaining)).statement

/-- Reads statements to the end of the source, in reverse. -/
def statements : (room : Nat) → List Stmt → Parser (List Stmt)
  | 0, body => return body
  | room + 1, body => do
    skipSemicolons (← remaining)
    if ← check .eof then return body
    else
      let s ← statement
      statements room (s :: body)

/-- Reads a whole program. -/
def program : Parser Program := do return (← statements (← remaining) []).reverse

end Parser

/-- The program that a source spells. -/
def parse (source : String) : Except Error Program :=
  match Parser.program (Input.ofSource source) with
  | .ok program _ => .ok program
  | .error e _ => .error e

end Rill.Syntax
