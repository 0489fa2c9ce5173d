import Rill.Proofs.Syntax.Completeness.Statements
import Rill.Proofs.Syntax.Semicolons
import Rill.Proofs.Syntax.Soundness
import Rill.Proofs.Text.Quoting
import Rill.Proofs.Token.LongestMatch

/-! Programs that are written out are read back. -/
namespace Rill.Syntax

open Token (Word)

/-- Words with blanks between them are an input that shows them. -/
theorem shows_spaced {ws : List Word} (h : ∀ w ∈ ws, w.Legible) :
    (Input.ofSource (Word.spaced ws)).Shows ws := by
  obtain ⟨ts, hts, hws⟩ := Token.piecesFrom_spaced 0 h
  exact ⟨ts, hts, hws, rfl⟩

end Rill.Syntax
