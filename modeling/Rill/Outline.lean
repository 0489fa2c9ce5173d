import Rill.Text.Printable
import Rill.Text.Span

/-! Labelled outlines of data, written on one line or indented over several. -/
namespace Rill

/-- The structure of a datum as it is shown to a developer. -/
inductive Outline where
  /-- A text shown as it is. -/
  | leaf (text : String)
  /-- A name with unnamed parts in parentheses. -/
  | tagged (name : String) (parts : List Outline)
  /-- A name with named parts in braces. -/
  | record (name : String) (fields : List (String × Outline))
  /-- Parts in brackets. -/
  | seq (parts : List Outline)
deriving Inhabited

namespace Outline

/-- The characters that show `c` between two marks `mark`. -/
def escape (mark c : Char) : List Char :=
  if c = '\x00' then ['\\', '0']
  else if c = '\t' then ['\\', 't']
  else if c = '\r' then ['\\', 'r']
  else if c = '\n' then ['\\', 'n']
  else if c = '\\' ∨ c = mark then ['\\', c]
  else if Text.isExtending c || !Text.isPrintable c then
    ['\\', 'u', '\x7b'] ++ Nat.toDigits 16 c.toNat ++ ['\x7d']
  else [c]

/-- A text between double quotes, with what cannot be shown escaped. -/
def quoted (s : String) : String :=
  String.ofList ('"' :: (s.toList.flatMap (escape '"') ++ ['"']))

/-- A character between single quotes, with what cannot be shown escaped. -/
def quotedChar (c : Char) : String := String.ofList ('\'' :: (escape '\'' c ++ ['\'']))

def text (s : String) : Outline := leaf (quoted s)

def nat (n : Nat) : Outline := leaf (toString n)

def int (i : Int) : Outline := leaf (toString i)

def bool (b : Bool) : Outline := leaf (toString b)

def option (o : Option Outline) : Outline :=
  match o with
  | none => leaf "None"
  | some part => tagged "Some" [part]

def span (s : Text.Span) : Outline :=
  record "Span" [("start", nat s.start), ("length", nat s.length)]

mutual

/-- The outline on one line. -/
def compact : Outline → String
  | leaf s => s
  | tagged name parts => name ++ "(" ++ ", ".intercalate (compactParts parts) ++ ")"
  | record name fields => name ++ " \x7b " ++ ", ".intercalate (compactFields fields) ++ " \x7d"
  | seq parts => "[" ++ ", ".intercalate (compactParts parts) ++ "]"

def compactParts : List Outline → List String
  | [] => []
  | o :: os => compact o :: compactParts os

def compactFields : List (String × Outline) → List String
  | [] => []
  | (name, o) :: fs => (name ++ ": " ++ compact o) :: compactFields fs

end

/-- The blanks that open a line at depth `depth`. -/
def margin (depth : Nat) : String := String.ofList (List.replicate (4 * depth) ' ')

mutual

/-- The outline over several lines, one part a line, where `depth` counts the levels around it. -/
def indented (depth : Nat) : Outline → String
  | leaf s => s
  | tagged name parts => name ++ "(\n" ++ indentedParts (depth + 1) parts ++ margin depth ++ ")"
  | record name fields =>
    name ++ " \x7b\n" ++ indentedFields (depth + 1) fields ++ margin depth ++ "\x7d"
  | seq [] => "[]"
  | seq (o :: os) => "[\n" ++ indentedParts (depth + 1) (o :: os) ++ margin depth ++ "]"

def indentedParts (depth : Nat) : List Outline → String
  | [] => ""
  | o :: os => margin depth ++ indented depth o ++ ",\n" ++ indentedParts depth os

def indentedFields (depth : Nat) : List (String × Outline) → String
  | [] => ""
  | (name, o) :: fs =>
    margin depth ++ name ++ ": " ++ indented depth o ++ ",\n" ++ indentedFields depth fs

end

/-- The outline over several lines. -/
def tall (o : Outline) : String := indented 0 o

end Outline
end Rill
