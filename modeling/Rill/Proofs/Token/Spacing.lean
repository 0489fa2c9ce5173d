import Rill.Proofs.Syntax.Spelling

/-! Words that stand apart are read as they are. -/
namespace Rill.Token

variable {c : Char} {cs ds : List Char}

/-! ### Pieces that a blank ends -/

theorem takeWhile_blank {p : Char → Bool} (hp : p ' ' = false) :
    (cs ++ ' ' :: ds).takeWhile p = cs.takeWhile p := by
  rw [List.takeWhile_append, List.takeWhile_cons, hp]
  split
  next hall =>
    have hself : cs.takeWhile p = cs := (List.takeWhile_prefix p).eq_of_length hall
    simp [hself]
  next => rfl

theorem isDigitPart_blank : isDigitPart ' ' = false := by decide

theorem length_takeWhile_le (p : Char → Bool) (cs : List Char) :
    (cs.takeWhile p).length ≤ cs.length :=
  (List.takeWhile_prefix p).length_le

theorem fractionLength_blank : fractionLength (cs ++ ' ' :: ds) = fractionLength cs := by
  match cs with
  | [] => rfl
  | [c] =>
    by_cases hc : c = '.'
    · subst hc
      rfl
    · simp [fractionLength, hc]
  | c :: d :: cs =>
    by_cases hc : c = '.'
    · subst hc
      simp only [List.cons_append, fractionLength, takeWhile_blank isDigitPart_blank]
    · simp [fractionLength, hc]

theorem fractionLength_le (cs : List Char) : fractionLength cs ≤ cs.length := by
  unfold fractionLength
  split
  next c cs =>
    have hle := length_takeWhile_le isDigitPart cs
    simp only [List.length_cons]
    split <;> omega
  next => exact Nat.zero_le _

theorem signLength_blank : signLength (cs ++ ' ' :: ds) = signLength cs := by
  match cs with
  | [] => rfl
  | c :: cs =>
    by_cases hp : c = '+'
    · subst hp
      rfl
    · by_cases hm : c = '-'
      · subst hm
        rfl
      · simp [signLength, hp, hm]

theorem signLength_le (cs : List Char) : signLength cs ≤ cs.length := by
  unfold signLength
  split <;> simp

theorem exponentLength_blank : exponentLength (cs ++ ' ' :: ds) = exponentLength cs := by
  match cs with
  | [] => simp [exponentLength]
  | c :: cs =>
    have hdrop : (cs ++ ' ' :: ds).drop (signLength cs) =
        cs.drop (signLength cs) ++ ' ' :: ds :=
      List.drop_append_of_le_length (signLength_le cs)
    rw [List.cons_append, exponentLength, exponentLength, signLength_blank, hdrop,
      takeWhile_blank (by decide)]

theorem matchNumber_blank : matchNumber c (cs ++ ' ' :: ds) = matchNumber c cs := by
  have hwhole := length_takeWhile_le isDigitPart cs
  have hfraction := fractionLength_le (cs.drop (cs.takeWhile isDigitPart).length)
  rw [List.length_drop] at hfraction
  unfold matchNumber
  rw [takeWhile_blank isDigitPart_blank]
  dsimp only
  rw [List.drop_append_of_le_length hwhole, fractionLength_blank,
    List.drop_append_of_le_length (by omega), exponentLength_blank,
    List.take_append_of_le_length hwhole]

theorem matchWord_blank : matchWord c (cs ++ ' ' :: ds) = matchWord c cs := by
  unfold matchWord
  rw [takeWhile_blank (by decide)]

theorem isPrefixOf_blank {s : List Char} (hs : ' ' ∉ s) :
    s.isPrefixOf (cs ++ ' ' :: ds) = s.isPrefixOf cs := by
  induction s generalizing cs with
  | nil => simp
  | cons a s ih =>
    obtain ⟨ha, hs⟩ := not_or.mp (mt List.mem_cons.mpr hs)
    cases cs with
    | nil =>
      have hne : (a == ' ') = false := beq_false_of_ne (Ne.symm ha)
      simp [List.isPrefixOf, hne]
    | cons d cs => rw [List.cons_append, List.isPrefixOf, List.isPrefixOf, ih hs]

theorem blank_not_mem_spelling (s : Symbol) : ' ' ∉ s.spelling.text.toList := by
  cases s <;> decide

theorem matchSymbol_blank : matchSymbol c (cs ++ ' ' :: ds) = matchSymbol c cs := by
  have hsame : (fun s : Symbol => s.spelling.text.toList.isPrefixOf (c :: (cs ++ ' ' :: ds))) =
      fun s => s.spelling.text.toList.isPrefixOf (c :: cs) := by
    funext s
    rw [← List.cons_append]
    exact isPrefixOf_blank (blank_not_mem_spelling s)
  unfold matchSymbol
  rw [hsame]

theorem stringLength?_cons {mark : Char} (hc : c ≠ '\\') : stringLength? mark (c :: cs) =
    if c = mark then some 1 else (stringLength? mark cs).map (· + 1) := by
  simp [stringLength?, hc]

/-- A string that is closed ends there, whatever follows. -/
theorem stringLength?_append {mark : Char} (hmark : mark ≠ '\\') {n : Nat}
    (h : stringLength? mark cs = some n) : stringLength? mark (cs ++ ds) = some n := by
  fun_induction stringLength? mark cs generalizing n with
  | case1 => cases h
  | case2 d cs ih =>
    obtain ⟨m, hm, rfl⟩ := Option.map_eq_some_iff.mp h
    rw [List.cons_append, List.cons_append, stringLength?, ih hm]
    rfl
  | case3 cs => rw [List.cons_append, stringLength?_cons hmark, if_pos rfl, h]
  | case4 c cs hescape hc ih =>
    obtain ⟨m, hm, rfl⟩ := Option.map_eq_some_iff.mp h
    have hne : c ≠ '\\' := by
      rintro rfl
      -- a backslash at the end escapes nothing, and leaves the string open
      cases cs with
      | nil => cases hm
      | cons d cs => exact hescape d cs rfl rfl
    rw [List.cons_append, stringLength?_cons hne, if_neg hc, ih hm]
    rfl

/-- A piece that makes up all of a text is the same before a blank. -/
theorem longestMatch_blank {k : Kind} {n : Nat} (h : longestMatch c cs = ⟨.ok k, n⟩) :
    longestMatch c (cs ++ ' ' :: ds) = ⟨.ok k, n⟩ := by
  unfold longestMatch at h ⊢
  split
  next hquote =>
    rw [if_pos hquote] at h
    have hmark : c ≠ '\\' := by
      rintro rfl
      cases hquote
    unfold matchString at h ⊢
    split at h
    next more hmore =>
      rw [stringLength?_append hmark hmore]
      exact h
    next => cases h
  next hquote =>
    rw [if_neg hquote] at h
    rw [matchNumber_blank, matchWord_blank, matchSymbol_blank]
    exact h

/-! ### Words -/

namespace Word

/-- The text is one piece of a source, and that is a token of the kind. -/
def Legible (w : Word) : Prop :=
  ∃ c cs, w.text.toList = c :: cs ∧ Text.isBlank c = false ∧ c ≠ '#' ∧
    longestMatch c cs = ⟨.ok w.kind, cs.length⟩

/-- The words with a blank between any two. -/
def spaced (ws : List Word) : String := " ".intercalate (ws.map Word.text)

theorem toList_spaced_cons_cons (v w : Word) (ws : List Word) :
    (spaced (v :: w :: ws)).toList = v.text.toList ++ ' ' :: (spaced (w :: ws)).toList := by
  simp only [spaced, List.map_cons, String.intercalate_cons_cons, String.toList_append,
    List.append_assoc]
  rfl

end Word

theorem piecesFrom_nil (offset : Nat) : piecesFrom offset [] = [] := by
  rw [piecesFrom.eq_def]

theorem piecesFrom_blank (offset : Nat) (cs : List Char) :
    piecesFrom offset (' ' :: cs) = piecesFrom (offset + 1) cs := by
  rw [piecesFrom.eq_def]
  dsimp only
  rw [if_pos (by decide)]
  rfl

/-- Reading the piece at the front. -/
theorem piecesFrom_cons (offset : Nat) (ds : List Char) {k : Kind} (hb : Text.isBlank c = false)
    (hc : c ≠ '#') (h : longestMatch c (cs ++ ds) = ⟨.ok k, cs.length⟩) : ∃ span,
    piecesFrom offset (c :: cs ++ ds) =
      .ok ⟨k, String.ofList (c :: cs), span⟩ :: piecesFrom span.stop ds := by
  refine ⟨⟨offset, Text.byteLength (c :: cs)⟩, ?_⟩
  rw [List.cons_append, piecesFrom.eq_def]
  dsimp only
  rw [if_neg (by simp [hb]), if_neg hc, h]
  simp

/-- Legible words with blanks between them are read as tokens with these words. -/
theorem piecesFrom_spaced (offset : Nat) {ws : List Word} (h : ∀ w ∈ ws, w.Legible) :
    ∃ ts : List Token, piecesFrom offset (Word.spaced ws).toList = ts.map .ok ∧
      ts.map word = ws := by
  induction ws generalizing offset with
  | nil =>
    have hempty : (Word.spaced []).toList = [] := rfl
    exact ⟨[], by rw [hempty, piecesFrom_nil]; rfl, rfl⟩
  | cons w ws ih =>
    obtain ⟨c, cs, htext, hb, hc, hmatch⟩ := h w List.mem_cons_self
    have hw (span : Text.Span) : word ⟨w.kind, String.ofList (c :: cs), span⟩ = w := by
      rw [← htext, String.ofList_toList]
      rfl
    cases ws with
    | nil =>
      have hlast : (Word.spaced [w]).toList = c :: cs ++ [] := by
        rw [List.append_nil, ← htext]
        rfl
      obtain ⟨span, hp⟩ := piecesFrom_cons offset [] hb hc (by rwa [List.append_nil])
      refine ⟨[⟨w.kind, String.ofList (c :: cs), span⟩], ?_, by rw [List.map_singleton, hw]⟩
      rw [hlast, hp, piecesFrom_nil]
      rfl
    | cons v ws =>
      obtain ⟨span, hp⟩ := piecesFrom_cons offset (' ' :: (Word.spaced (v :: ws)).toList) hb hc
        (longestMatch_blank hmatch)
      obtain ⟨ts, hts, hws⟩ := ih (span.stop + 1) fun w hw => h w (List.mem_cons_of_mem _ hw)
      refine ⟨⟨w.kind, String.ofList (c :: cs), span⟩ :: ts, ?_, by rw [List.map_cons, hw, hws]⟩
      rw [Word.toList_spaced_cons_cons, htext, hp, piecesFrom_blank, hts, List.map_cons]

end Rill.Token
