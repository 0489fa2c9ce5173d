import Rill.Syntax.Error
import Rill.Token.Lexer

/-! Readers of token sequences. -/
namespace Rill.Syntax

/-- What is left of a source. -/
structure Input where
  rest : List Token.Piece
  /-- The token given once nothing is left. -/
  finish : Token

namespace Input

def ofSource (source : String) : Input := ⟨Token.pieces source, Token.endOf source⟩

end Input

/-- A reader consumes pieces of the source from the front. What it has consumed before it fails stays
consumed. -/
abbrev Parser := EStateM Error Input

namespace Parser

/-- The number of pieces left. -/
def remaining : Parser Nat := do return (← get).rest.length

def fail {α : Type} (fault : Fault) (span : Text.Span) : Parser α := throw ⟨fault, span⟩

/-- The next token, left in place. A piece that is no token is consumed and reported. -/
def peek : Parser Token := do
  let input ← get
  match input.rest with
  | [] => return input.finish
  | .ok token :: _ => return token
  | .error e :: rest =>
    set { input with rest := rest }
    throw (Error.ofLexical e)

/-- The next token, consumed. -/
def next : Parser Token := do
  let token ← peek
  modify fun input => { input with rest := input.rest.drop 1 }
  return token

/-- The next token, which has to be of the given kind. -/
def expect (kind : Token.Kind) : Parser Token := do
  let token ← next
  if token.kind = kind then return token
  else fail (.unexpectedToken token.kind kind) token.span

/-- The next token if it is of the given kind; else nothing is consumed. -/
def eat? (kind : Token.Kind) : Parser (Option Token) := do
  let token ← peek
  if token.kind = kind then return some (← next) else return none

/-- Whether the next token is of the given kind. -/
def check (kind : Token.Kind) : Parser Bool := do return decide ((← peek).kind = kind)

def symbol (s : Symbol) : Parser Token := expect (.symbol s)

def keyword (k : Keyword) : Parser Token := expect (.keyword k)

/-- Consumes the symbol if it comes next, and says whether it did. -/
def skip (s : Symbol) : Parser Bool := do return (← eat? (.symbol s)).isSome

/-- Consumes as many semicolons as follow; `room` bounds their number. -/
def skipSemicolons : (room : Nat) → Parser Unit
  | 0 => return ()
  | room + 1 => do if ← skip .semicolon then skipSemicolons room

end Parser
end Rill.Syntax
