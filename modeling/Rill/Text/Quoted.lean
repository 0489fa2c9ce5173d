/-! String literals between single quotes, and the reading of their escapes. -/
namespace Rill.Text

/-- The characters that stand for `c` inside a quoted string. -/
def escapeChar (c : Char) : List Char :=
  if c = '\\' then ['\\', '\\']
  else if c = '\'' then ['\\', '\'']
  else if c = '\n' then ['\\', 'n']
  else if c = '\t' then ['\\', 't']
  else if c = '\r' then ['\\', 'r']
  else if c = '\x00' then ['\\', '0']
  else [c]

/-- The character that a backslash followed by `c` stands for. -/
def unescapeChar (c : Char) : Char :=
  if c = 'n' then '\n'
  else if c = 't' then '\t'
  else if c = 'r' then '\r'
  else if c = '0' then '\x00'
  else c

/-- Reads escapes. A backslash at the very end stands for itself. -/
def unescapeBody : List Char → List Char
  | '\\' :: c :: cs => unescapeChar c :: unescapeBody cs
  | c :: cs => c :: unescapeBody cs
  | [] => []

/-- What stands between the first and the last byte of a literal, or nothing if one of them is not a
character of its own. -/
def literalBody : List Char → List Char
  | [] => []
  | c :: cs =>
    if c.utf8Size = 1 ∧ ((c :: cs).getLastD c).utf8Size = 1 then cs.dropLast else []

/-- The text that a string literal denotes. -/
def unescape (literal : String) : String :=
  String.ofList (unescapeBody (literalBody literal.toList))

/-- A text as a string literal. -/
def quote (text : String) : String :=
  String.ofList ('\'' :: (text.toList.flatMap escapeChar ++ ['\'']))

end Rill.Text
