import Rill.Proofs.Token.Grammar
import Rill.Text.Quoted

/-! A text in quotes is one string token, and it denotes the text. -/
namespace Rill

namespace Text

variable {c : Char} {cs : List Char}

/-- A character is written as itself, or as a backslash and a character that stands for it. -/
theorem escapeChar_cases (c : Char) :
    (escapeChar c = [c] ∧ c ≠ '\\' ∧ c ≠ '\'') ∨
      ∃ d, escapeChar c = ['\\', d] ∧ unescapeChar d = c := by
  unfold escapeChar
  split
  · next h => exact .inr ⟨'\\', rfl, h.symm⟩
  split
  · next h => exact .inr ⟨'\'', rfl, h.symm⟩
  split
  · next h => exact .inr ⟨'n', rfl, h.symm⟩
  split
  · next h => exact .inr ⟨'t', rfl, h.symm⟩
  split
  · next h => exact .inr ⟨'r', rfl, h.symm⟩
  split
  · next h => exact .inr ⟨'0', rfl, h.symm⟩
  · next hbackslash hquote _ _ _ _ => exact .inl ⟨rfl, hbackslash, hquote⟩

theorem unescapeBody_cons (hc : c ≠ '\\') : unescapeBody (c :: cs) = c :: unescapeBody cs := by
  rw [unescapeBody]
  rintro d ds rfl
  exact absurd rfl hc

theorem unescapeBody_escape (cs : List Char) : unescapeBody (cs.flatMap escapeChar) = cs := by
  induction cs with
  | nil => rfl
  | cons c cs ih =>
    rw [List.flatMap_cons]
    rcases escapeChar_cases c with ⟨hc, hne, -⟩ | ⟨d, hc, hd⟩
    · rw [hc, List.singleton_append, unescapeBody_cons hne, ih]
    · rw [hc, List.cons_append, List.singleton_append, unescapeBody, hd, ih]

theorem unescape_quote (t : String) : unescape (quote t) = t := by
  have hbody : literalBody (quote t).toList = t.toList.flatMap escapeChar := by
    rw [quote, String.toList_ofList, literalBody, if_pos, List.dropLast_concat]
    rw [← List.cons_append, List.getLastD_concat]
    exact ⟨rfl, rfl⟩
  rw [unescape, hbody, unescapeBody_escape, String.ofList_toList]

end Text

namespace Token

theorem stringBody_escape (cs : List Char) : StringBody '\'' (cs.flatMap Text.escapeChar) := by
  induction cs with
  | nil => exact .nil
  | cons c cs ih =>
    rw [List.flatMap_cons]
    rcases Text.escapeChar_cases c with ⟨hc, hbackslash, hquote⟩ | ⟨d, hc, -⟩
    · rw [hc]
      exact .plain hquote hbackslash ih
    · rw [hc]
      exact .escape ih

/-- Whatever follows, a quoted text is matched up to its last quote. -/
theorem longestMatch_quote (t : String) (rest : List Char) :
    ∃ cs, (Text.quote t).toList = '\'' :: cs ∧
      longestMatch '\'' (cs ++ rest) = ⟨.ok .string, cs.length⟩ := by
  refine ⟨t.toList.flatMap Text.escapeChar ++ ['\''], by rw [Text.quote, String.toList_ofList], ?_⟩
  have hstring := (stringBody_escape t.toList).stringLength?_append (by decide) rest
  have hlength : (t.toList.flatMap Text.escapeChar ++ ['\'']).length =
      (t.toList.flatMap Text.escapeChar).length + 1 := List.length_append
  change matchString '\'' _ = _
  rw [matchString, List.append_assoc, List.singleton_append, hstring, hlength]

end Token
end Rill
