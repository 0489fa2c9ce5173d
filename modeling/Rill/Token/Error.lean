import Rill.Token

/-! Pieces of source that are no token. -/
namespace Rill.Token

/-- Why a piece of source is no token. -/
inductive Fault where
  | unrecognized (c : Char)
  | unclosedString
  /-- An integer literal, given by its digits, beyond the range of integers. -/
  | integerTooLarge (digits : String)
deriving DecidableEq, Repr

namespace Fault

def message : Fault → String
  | unrecognized c => "Unrecognized character " ++ c.toString
  | unclosedString => "Unterminated string literal"
  | integerTooLarge digits => "Integer literal " ++ digits ++ " does not fit in 64 bits"

def code : Fault → String
  | unrecognized _ => "LX001"
  | unclosedString => "LX002"
  | integerTooLarge _ => "LX003"

def outline : Fault → Outline
  | unrecognized c => .tagged "Unrecognized" [.leaf (Outline.quotedChar c)]
  | unclosedString => .leaf "UnclosedString"
  | integerTooLarge digits => .tagged "IntegerTooLarge" [.text digits]

end Fault

/-- A piece of source that is no token, with its place. -/
structure Error where
  fault : Fault
  span : Text.Span
deriving DecidableEq, Repr

namespace Error

def outline (e : Error) : Outline :=
  .record "LexicalError" [("kind", e.fault.outline), ("span", .span e.span)]

end Error
end Rill.Token
