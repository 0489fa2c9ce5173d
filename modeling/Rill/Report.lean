import Rill.Session

/-! Reports on what went wrong, for people. -/
namespace Rill

/-- The heading of a report and the notes under it. -/
structure Report where
  header : String
  notes : List String

namespace Report

/-- The form `[CODE] Error: …`. -/
def heading (code message : String) : String := "[" ++ code ++ "] Error: " ++ message

def ofSyntax (e : Syntax.Error) : Report := ⟨heading e.fault.code "Syntax error", []⟩

def ofPlacement (e : Syntax.PlacementError) : Report := ⟨heading e.fault.code e.fault.heading, []⟩

/-- A note on a call in progress. -/
def callNote (lines : Text.Lines) (f : CallFrame) : String :=
  "in " ++ f.name ++ " called at line " ++ (lines.position f.span.start).render

/-- Whether a source of `length` characters has an excerpt to show for a place. The offsets of the
place are taken for numbers of characters, and it may go one beyond the end. -/
def hasExcerpt (length : Nat) (s : Text.Span) : Bool :=
  decide (s.start ≤ length) && (s.length == 0 || decide (s.start + s.length ≤ length + 1))

/-- An exception with a note on each call in progress, innermost first. The notes stand under the
excerpt of the source, so without one there are none. -/
def ofException (source : String) (e : Exception) : Report :=
  let lines := Text.Lines.ofString source
  ⟨heading e.code ("Uncaught " ++ e.className),
    if hasExcerpt source.length e.span then e.traceback.toList.reverse.map (callNote lines)
    else []⟩

/-- The report as lines. -/
def lines (r : Report) : List String := r.header :: r.notes.map ("  Note: " ++ ·)

end Report
end Rill
