import Rill.Text.Span

/-! Line and column numbers of byte offsets. -/
namespace Rill.Text

/-- The lines of a text as ranges of offsets `(first, stop)`, each with its newline. -/
structure Lines where
  ranges : List (Nat × Nat)

/-- A line and a column, both counted from one, the column in bytes. -/
structure Position where
  line : Nat
  column : Nat
deriving DecidableEq, Repr

namespace Lines

/-- The ranges of the lines of a text, where `first` is the offset at which the current line starts
and `offset` that of the next character. A last line without a newline covers the end of the text
too. -/
def rangesFrom (first offset : Nat) : List Char → List (Nat × Nat)
  | [] => if first = offset then [] else [(first, offset + 1)]
  | '\n' :: cs => (first, offset + 1) :: rangesFrom (offset + 1) (offset + 1) cs
  | c :: cs => rangesFrom first (offset + c.utf8Size) cs

/-- The lines of a text. The empty text has one line. -/
def ofString (text : String) : Lines :=
  ⟨if text.isEmpty then [(0, 1)] else rangesFrom 0 0 text.toList⟩

/-- The line given to offsets beyond all lines. -/
def lastLine (lines : Lines) : Nat := lines.ranges.length + 1

/-- The position of an offset, where `line` counts the lines passed. -/
def locate (offset : Nat) (line : Nat) : List (Nat × Nat) → Position
  | [] => ⟨line, 1⟩
  | (first, stop) :: rest =>
    if first ≤ offset ∧ offset < stop then ⟨line, offset - first + 1⟩
    else locate offset (line + 1) rest

def position (lines : Lines) (offset : Nat) : Position := locate offset 1 lines.ranges

end Lines

namespace Position

/-- The form `line:column`. -/
def render (p : Position) : String := s!"{p.line}:{p.column}"

end Position
end Rill.Text
