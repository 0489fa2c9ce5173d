import Rill.Text.Blank
import Rill.Token.Error
import Rill.Decimal.Reader

/-! Cutting a source into tokens by longest match. -/
namespace Rill.Token

def isWordStart (c : Char) : Bool := c.isAlpha || c == '_'

def isWordPart (c : Char) : Bool := c.isAlphanum || c == '_'

/-- Digits may be grouped by underscores. -/
def isDigitPart (c : Char) : Bool := c.isDigit || c == '_'

/-- The length of a fraction at the front: a point with a digit after it, and further digits. -/
def fractionLength : List Char → Nat
  | '.' :: c :: cs => if c.isDigit then 2 + (cs.takeWhile isDigitPart).length else 0
  | _ => 0

/-- The length of a sign at the front. -/
def signLength : List Char → Nat
  | '+' :: _ => 1
  | '-' :: _ => 1
  | _ => 0

/-- The length of an exponent at the front: a mark, an optional sign and at least one digit. -/
def exponentLength : List Char → Nat
  | [] => 0
  | c :: cs =>
    let sign := signLength cs
    let digits := ((cs.drop sign).takeWhile Char.isDigit).length
    if (c == 'e' || c == 'E') && digits != 0 then 1 + sign + digits else 0

/-- The length of a string up to and including its closing quote, counted after the opening one. -/
def stringLength? (mark : Char) : List Char → Option Nat
  | [] => none
  | '\\' :: _ :: cs => (stringLength? mark cs).map (· + 2)
  | c :: cs => if c = mark then some 1 else (stringLength? mark cs).map (· + 1)

/-- An outcome for the piece that starts here, and how many characters after the first it takes. -/
structure Match where
  outcome : Except Fault Kind
  more : Nat

/-- The greatest integer that a literal may denote. -/
def maxInt : Nat := 0x7fffffffffffffff

/-- A number that starts with the digit `c`. -/
def matchNumber (c : Char) (cs : List Char) : Match :=
  let whole := (cs.takeWhile isDigitPart).length
  let fraction := fractionLength (cs.drop whole)
  let exponent := exponentLength (cs.drop (whole + fraction))
  let more := whole + fraction + exponent
  if fraction = 0 ∧ exponent = 0 then
    let digits := (c :: cs.take whole).filter (· != '_')
    if Decimal.ofDigits digits ≤ maxInt then ⟨.ok .int, more⟩
    else ⟨.error (.integerTooLarge (String.ofList digits)), more⟩
  else ⟨.ok .float, more⟩

def matchWord (c : Char) (cs : List Char) : Match :=
  let rest := cs.takeWhile isWordPart
  let kind := match Keyword.ofText? (String.ofList (c :: rest)) with
    | some k => .keyword k
    | none => .ident
  ⟨.ok kind, rest.length⟩

/-- A string without an end takes the whole rest of the source. -/
def matchString (mark : Char) (cs : List Char) : Match :=
  match stringLength? mark cs with
  | some more => ⟨.ok .string, more⟩
  | none => ⟨.error .unclosedString, cs.length⟩

def matchSymbol (c : Char) (cs : List Char) : Match :=
  match Symbol.all.find? (fun s => s.spelling.text.toList.isPrefixOf (c :: cs)) with
  | some s => ⟨.ok (.symbol s), s.spelling.text.length - 1⟩
  | none => ⟨.error (.unrecognized c), 0⟩

/-- The longest piece at the front of `c :: cs`, where `c` is neither blank nor opens a comment. -/
def longestMatch (c : Char) (cs : List Char) : Match :=
  if c == '"' || c == '\'' then matchString c cs
  else if c.isDigit then matchNumber c cs
  else if isWordStart c then matchWord c cs
  else matchSymbol c cs

/-- A token, or a piece that is none. -/
abbrev Piece := Except Error Token

/-- The pieces of a source whose next character stands at byte `offset`. Blanks and comments, which
run from `#` to the end of the line, are left out. -/
def piecesFrom (offset : Nat) : List Char → List Piece
  | [] => []
  | c :: cs =>
    if Text.isBlank c then piecesFrom (offset + c.utf8Size) cs
    else if c = '#' then
      piecesFrom (offset + 1 + Text.byteLength (cs.takeWhile (· != '\n')))
        (cs.dropWhile (· != '\n'))
    else
      let m := longestMatch c cs
      let text := c :: cs.take m.more
      let span : Text.Span := ⟨offset, Text.byteLength text⟩
      let piece : Piece := match m.outcome with
        | .ok kind => .ok ⟨kind, String.ofList text, span⟩
        | .error fault => .error ⟨fault, span⟩
      piece :: piecesFrom span.stop (cs.drop m.more)
termination_by cs => cs.length
decreasing_by
  · simp
  · simpa using Nat.lt_succ_of_le (List.dropWhile_suffix _).length_le
  · simp only [List.length_drop, List.length_cons]
    omega

/-- The pieces of a source in order, without its end. -/
def pieces (source : String) : List Piece := piecesFrom 0 source.toList

/-- The token that stands for the end of a source. -/
def endOf (source : String) : Token := ⟨.eof, "", ⟨source.utf8ByteSize, 0⟩⟩

end Rill.Token
