import Rill.Proofs.Token.Spacing

/-! Every token of a source is legible on its own. -/
namespace Rill.Token

variable {c : Char} {cs : List Char} {n : Nat}

theorem takeWhile_take {p : Char → Bool} (h : (cs.takeWhile p).length ≤ n) :
    (cs.take n).takeWhile p = cs.takeWhile p := by
  induction cs generalizing n with
  | nil => simp
  | cons c cs ih =>
    rw [List.takeWhile_cons] at h ⊢
    split at h
    next hc =>
      obtain ⟨n, rfl⟩ : ∃ m, n = m + 1 := ⟨n - 1, by simp at h; omega⟩
      rw [List.take_succ_cons, List.takeWhile_cons, if_pos hc, if_pos hc, ih (by simpa using h)]
    next hc => cases n <;> simp [hc]

/-! ### Numbers -/

theorem signLength_take (hn : 0 < n) : signLength (cs.take n) = signLength cs := by
  obtain ⟨n, rfl⟩ : ∃ m, n = m + 1 := ⟨n - 1, by omega⟩
  match cs with
  | [] => rfl
  | c :: cs =>
    rw [List.take_succ_cons]
    unfold signLength
    split <;> simp_all

/-- An exponent is one also without what follows. -/
theorem exponentLength_take : exponentLength (cs.take (exponentLength cs)) = exponentLength cs := by
  match cs with
  | [] => rfl
  | c :: cs =>
    rw [exponentLength]
    split
    next hexp =>
      have hdigits : 0 < ((cs.drop (signLength cs)).takeWhile Char.isDigit).length := by
        simp only [Bool.and_eq_true, bne_iff_ne] at hexp
        omega
      rw [Nat.add_assoc, Nat.add_comm 1, List.take_succ_cons, exponentLength,
        signLength_take (by omega), List.drop_take, Nat.add_sub_cancel_left,
        takeWhile_take (Nat.le_refl _)]
      rw [if_pos hexp]
      omega
    next => rfl

theorem exponentLength_le (cs : List Char) : exponentLength cs ≤ cs.length := by
  match cs with
  | [] => exact Nat.le_refl 0
  | c :: cs =>
    have hdigits := length_takeWhile_le Char.isDigit (cs.drop (signLength cs))
    have hsign := signLength_le cs
    rw [List.length_drop] at hdigits
    rw [exponentLength, List.length_cons]
    split <;> omega

theorem fractionLength_take (h : 0 < fractionLength cs) (hn : fractionLength cs ≤ n) :
    fractionLength (cs.take n) = fractionLength cs := by
  unfold fractionLength at h hn
  split at h
  next c cs =>
    split at h
    next hc =>
      simp only [hc, if_true] at hn
      obtain ⟨n, rfl⟩ : ∃ m, n = m + 2 := ⟨n - 2, by omega⟩
      rw [List.take_succ_cons, List.take_succ_cons, fractionLength, fractionLength,
        takeWhile_take (by omega)]
    next => cases h
  next => cases h

/-- There is no fraction in an exponent. -/
theorem fractionLength_take_exponent (h : fractionLength cs = 0) :
    fractionLength (cs.take (exponentLength cs)) = 0 := by
  match cs with
  | [] => rfl
  | c :: cs =>
    rw [exponentLength]
    split
    next hexp =>
      have hc : c ≠ '.' := by
        rintro rfl
        simp at hexp
      rw [Nat.add_assoc, Nat.add_comm 1, List.take_succ_cons]
      simp [fractionLength, hc]
    next => rfl

theorem more_matchNumber : (matchNumber c cs).more =
    (cs.takeWhile isDigitPart).length +
      fractionLength (cs.drop (cs.takeWhile isDigitPart).length) +
      exponentLength (cs.drop ((cs.takeWhile isDigitPart).length +
        fractionLength (cs.drop (cs.takeWhile isDigitPart).length))) := by
  unfold matchNumber
  dsimp only
  split
  · split <;> rfl
  · rfl

theorem matchNumber_take (c : Char) (cs : List Char) :
    (matchNumber c cs).more ≤ cs.length ∧
      matchNumber c (cs.take (matchNumber c cs).more) = matchNumber c cs := by
  have hwhole := length_takeWhile_le isDigitPart cs
  rw [more_matchNumber]
  generalize hw : (cs.takeWhile isDigitPart).length = w at hwhole ⊢
  have hf := fractionLength_le (cs.drop w)
  generalize hfl : fractionLength (cs.drop w) = f at hf ⊢
  have he := exponentLength_le (cs.drop (w + f))
  generalize hel : exponentLength (cs.drop (w + f)) = e at he ⊢
  simp only [List.length_drop] at hf he
  refine ⟨by omega, ?_⟩
  have hwhole' : (cs.take (w + f + e)).takeWhile isDigitPart = cs.takeWhile isDigitPart :=
    takeWhile_take (by omega)
  have hfraction : fractionLength ((cs.take (w + f + e)).drop w) = f := by
    have hsub : w + f + e - w = f + e := by omega
    rw [List.drop_take, hsub]
    by_cases hpos : 0 < f
    · rw [fractionLength_take (by omega) (by omega), hfl]
    · obtain rfl : f = 0 := by omega
      rw [Nat.add_zero] at hel
      rw [Nat.zero_add, ← hel, fractionLength_take_exponent hfl]
  have hexponent : exponentLength ((cs.take (w + f + e)).drop (w + f)) = e := by
    rw [List.drop_take, Nat.add_sub_cancel_left, ← hel, exponentLength_take]
  have htake : (cs.take (w + f + e)).take w = cs.take w := by
    rw [List.take_take, Nat.min_eq_left (by omega)]
  unfold matchNumber
  rw [hwhole', hw]
  dsimp only
  rw [hfraction, hexponent, htake, hfl, hel]

/-! ### Strings, words and symbols -/

theorem stringLength?_take {mark : Char} (h : stringLength? mark cs = some n) :
    n ≤ cs.length ∧ stringLength? mark (cs.take n) = some n := by
  fun_induction stringLength? mark cs generalizing n with
  | case1 => cases h
  | case2 d cs ih =>
    obtain ⟨m, hm, rfl⟩ := Option.map_eq_some_iff.mp h
    obtain ⟨hle, htake⟩ := ih hm
    refine ⟨by simpa using hle, ?_⟩
    rw [List.take_succ_cons, List.take_succ_cons, stringLength?, htake]
    rfl
  | case3 cs =>
    cases h
    exact ⟨by simp, by simp [stringLength?]⟩
  | case4 c cs hescape hc ih =>
    obtain ⟨m, hm, rfl⟩ := Option.map_eq_some_iff.mp h
    obtain ⟨hle, htake⟩ := ih hm
    have hne : c ≠ '\\' := by
      rintro rfl
      cases cs with
      | nil => cases hm
      | cons d cs => exact hescape d cs rfl rfl
    refine ⟨by simpa using hle, ?_⟩
    rw [List.take_succ_cons, stringLength?_cons hne, if_neg hc, htake]
    rfl

theorem matchWord_take (c : Char) (cs : List Char) : (matchWord c cs).more ≤ cs.length ∧
    matchWord c (cs.take (matchWord c cs).more) = matchWord c cs := by
  refine ⟨length_takeWhile_le isWordPart cs, ?_⟩
  unfold matchWord
  rw [takeWhile_take (Nat.le_refl _)]

/-- The spelling of a symbol is read as that symbol. -/
theorem matchSymbol_spelling (s : Symbol) {cs : List Char} (h : s.spelling.text.toList = c :: cs) :
    matchSymbol c cs = ⟨.ok (.symbol s), cs.length⟩ := by
  cases s <;> cases h <;> rfl

theorem matchSymbol_take {k : Kind} (h : matchSymbol c cs = ⟨.ok k, n⟩) :
    n ≤ cs.length ∧ matchSymbol c (cs.take n) = ⟨.ok k, n⟩ := by
  unfold matchSymbol at h
  split at h
  next s hs =>
    cases h
    have hprefix := List.find?_some hs
    obtain ⟨rest, hrest⟩ := List.isPrefixOf_iff_prefix.mp hprefix
    cases htext : s.spelling.text.toList with
    | nil => cases s <;> cases htext
    | cons d ds =>
      rw [htext] at hrest
      obtain ⟨rfl, rfl⟩ := List.cons.inj hrest
      have hlength : s.spelling.text.length - 1 = ds.length := by
        rw [← String.length_toList, htext]
        rfl
      rw [hlength, List.append_eq, List.take_left]
      exact ⟨by simp, matchSymbol_spelling s htext⟩
  next => cases h

/-- A piece of a source is the same piece without what follows. -/
theorem longestMatch_take {k : Kind} (h : longestMatch c cs = ⟨.ok k, n⟩) :
    n ≤ cs.length ∧ longestMatch c (cs.take n) = ⟨.ok k, n⟩ := by
  unfold longestMatch at h ⊢
  split at h
  next hquote =>
    rw [if_pos hquote]
    unfold matchString at h ⊢
    split at h
    next more hmore =>
      cases h
      obtain ⟨hle, htake⟩ := stringLength?_take hmore
      rw [htake]
      exact ⟨hle, rfl⟩
    next => cases h
  next hquote =>
    rw [if_neg hquote]
    split at h
    next hdigit =>
      rw [if_pos hdigit]
      have htake := matchNumber_take c cs
      rwa [h] at htake
    next hdigit =>
      rw [if_neg hdigit]
      split at h
      next hword =>
        rw [if_pos hword]
        have htake := matchWord_take c cs
        rwa [h] at htake
      next hword =>
        rw [if_neg hword]
        exact matchSymbol_take h

theorem legible_of_mem_piecesFrom {offset : Nat} {t : Token} (h : .ok t ∈ piecesFrom offset cs) :
    t.word.Legible := by
  fun_induction piecesFrom offset cs with
  | case1 => cases h
  | case2 offset c cs hb ih => exact ih h
  | case3 offset cs hb ih => exact ih h
  | case4 offset c cs hb hc m text span piece ih =>
    rcases List.mem_cons.mp h with h | h
    · cases hmatch : longestMatch c cs with
      | mk outcome more =>
        simp only [piece, text, span, m, hmatch] at h
        cases outcome with
        | error fault => cases h
        | ok kind =>
          cases h
          obtain ⟨hle, htake⟩ := longestMatch_take hmatch
          refine ⟨c, cs.take more, by simp [word], by simpa using hb, hc, ?_⟩
          rw [htake, List.length_take, Nat.min_eq_left hle]
          rfl
    · exact ih h

end Rill.Token
