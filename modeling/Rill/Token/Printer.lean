import Rill.Decimal.Notation
import Rill.Decimal.Reader
import Rill.Text.Lines
import Rill.Text.Quoted
import Rill.Token.Error

/-! Tokens as text, one a line. -/
namespace Rill.Token

/-- The digits of a numeral without the underscores that group them. -/
def ungrouped (text : String) : String := String.ofList (text.toList.filter (· != '_'))

/-- The integer that a literal denotes. -/
def intValue (text : String) : Nat := Decimal.ofDigits (ungrouped text).toList

/-- The number that a literal denotes. -/
def floatValue (text : String) : Binary64 :=
  (Decimal.read? (ungrouped text)).getD Binary64.zero

/-- What a token denotes, if it is a literal. -/
def literalText (t : Token) : String :=
  match t.kind with
  | .int => toString (intValue t.text)
  | .float => Decimal.write .outlined (floatValue t.text)
  | .string => Text.unescape t.text
  | _ => "null"

/-- The form `KIND text literal`. -/
def line (t : Token) : String := t.kind.title ++ " " ++ t.text ++ " " ++ t.literalText

/-- What was found where no token is. -/
def Fault.complaint : Fault → String
  | .unrecognized c => "Unexpected character: " ++ c.toString
  | .unclosedString => "Unterminated string."
  | .integerTooLarge digits => "Integer literal " ++ digits ++ " is too large."

/-- The form `[line L:C] Error: …`. -/
def Error.line (lines : Text.Lines) (e : Error) : String :=
  "[line " ++ (lines.position e.span.start).render ++ "] Error: " ++ e.fault.complaint

end Rill.Token
