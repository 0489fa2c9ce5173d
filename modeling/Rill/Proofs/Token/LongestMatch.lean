import Rill.Proofs.Token.Grammar

/-! What is matched at the front of a source is the longest piece of the grammar. -/
namespace Rill.Token

variable {c : Char} {cs ds : List Char} {k : Kind}

/-- The kind of what was matched, integers out of range among them. -/
def Match.kind? (m : Match) : Option Kind :=
  match m.outcome with
  | .ok k => some k
  | .error (.integerTooLarge _) => some .int
  | .error _ => none

/-- The match is longer than a token of kind `k` with `n` characters after the first, or it is as long
and of that kind. -/
def Match.Covers (m : Match) (k : Kind) (n : Nat) : Prop :=
  ∃ k', m.kind? = some k' ∧ (n < m.more ∨ (n = m.more ∧ k = k'))

/-! ### Numbers -/

theorem kind?_matchNumber : (matchNumber c cs).kind? =
    if fractionLength (cs.drop (cs.takeWhile isDigitPart).length) = 0 ∧
        exponentLength (cs.drop ((cs.takeWhile isDigitPart).length +
          fractionLength (cs.drop (cs.takeWhile isDigitPart).length))) = 0
    then some .int else some .float := by
  unfold matchNumber
  dsimp only
  split
  · split <;> rfl
  · rfl

theorem spells_matchNumber (hc : c.isDigit = true) (h : (matchNumber c cs).kind? = some k) :
    k.Spells (c :: cs.take (matchNumber c cs).more) := by
  have hwhole : IsDigits (c :: cs.take (cs.takeWhile isDigitPart).length) := by
    rw [← List.prefix_iff_eq_take.mp (List.takeWhile_prefix _)]
    exact isDigits_iff.mpr ⟨c, _, rfl, hc, fun d => List.mem_takeWhile_imp⟩
  rw [kind?_matchNumber] at h
  rw [more_matchNumber]
  generalize (cs.takeWhile isDigitPart).length = w at hwhole h ⊢
  generalize hf : fractionLength (cs.drop w) = f at h ⊢
  generalize he : exponentLength (cs.drop (w + f)) = e at h ⊢
  split at h
  next hnone =>
    obtain ⟨rfl, rfl⟩ := hnone
    cases h
    exact .int hwhole
  next hsome =>
    cases h
    have hfraction : (cs.drop w).take f = [] ∨ IsFraction ((cs.drop w).take f) := by
      by_cases h0 : f = 0
      · exact .inl (by rw [h0, List.take_zero])
      · exact .inr (hf ▸ isFraction_take (hf ▸ h0))
    have hexponent : (cs.drop (w + f)).take e = [] ∨ IsExponent ((cs.drop (w + f)).take e) := by
      by_cases h0 : e = 0
      · exact .inl (by rw [h0, List.take_zero])
      · exact .inr (he ▸ isExponent_take (he ▸ h0))
    have hne : (cs.drop w).take f ++ (cs.drop (w + f)).take e ≠ [] := by
      have hle := fractionLength_le (cs.drop w)
      have hle' := exponentLength_le (cs.drop (w + f))
      intro hnil
      have hlength := congrArg List.length hnil
      rw [List.length_append, List.length_take, List.length_take, List.length_nil] at hlength
      omega
    have hsplit : c :: cs.take (w + f + e) =
        c :: cs.take w ++ ((cs.drop w).take f ++ (cs.drop (w + f)).take e) := by
      rw [List.take_add, List.take_add, List.append_assoc, List.cons_append]
    rw [hsplit]
    exact .float hwhole hfraction hexponent hne

theorem covers_matchNumber_int (hd : ∀ d ∈ ds, isDigitPart d = true) (h : ds <+: cs) :
    (matchNumber c cs).Covers .int ds.length := by
  have hle := length_le_takeWhile hd h
  unfold Match.Covers
  rw [kind?_matchNumber, more_matchNumber]
  split
  next hnone =>
    refine ⟨_, rfl, ?_⟩
    simp only [and_true]
    omega
  next hsome => exact ⟨_, rfl, .inl (by omega)⟩

theorem covers_matchNumber_float {fraction exponent : List Char}
    (hd : ∀ d ∈ ds, isDigitPart d = true) (hf : fraction = [] ∨ IsFraction fraction)
    (he : exponent = [] ∨ IsExponent exponent) (hne : fraction ++ exponent ≠ [])
    (h : ds ++ (fraction ++ exponent) <+: cs) :
    (matchNumber c cs).Covers .float (ds ++ (fraction ++ exponent)).length := by
  obtain ⟨rest, rfl⟩ := h
  -- the whole part ends at the point or at the mark of the exponent, whichever comes first
  have hstops : ∀ c ∈ (fraction ++ exponent ++ rest).head?, isDigitPart c = false := by
    rcases hf with rfl | hf
    · rcases he with rfl | he
      · exact absurd rfl hne
      · exact he.stops
    · rw [List.append_assoc]
      exact hf.stops
  have hwhole : (ds ++ (fraction ++ exponent) ++ rest).takeWhile isDigitPart = ds := by
    rw [List.append_assoc]
    exact takeWhile_append_of_stop hd hstops
  have hdrop : (ds ++ (fraction ++ exponent) ++ rest).drop ds.length =
      fraction ++ exponent ++ rest := by
    rw [List.append_assoc, List.drop_left]
  unfold Match.Covers
  rw [kind?_matchNumber, more_matchNumber, hwhole, hdrop, ← List.drop_drop, hdrop]
  rcases he with rfl | he
  · -- without an exponent the fraction is as long as it can be
    have hf := hf.resolve_left fun hnil => hne (by rw [hnil]; rfl)
    have hpos : fraction.length ≠ 0 := by
      obtain ⟨_, rfl, -⟩ := hf
      exact nofun
    rw [List.append_nil]
    have hle := hf.le_fractionLength (List.prefix_append fraction rest)
    rw [if_neg (by omega), List.length_append]
    exact ⟨_, rfl, by simp only [and_true]; omega⟩
  · have hfraction : fractionLength (fraction ++ exponent ++ rest) = fraction.length := by
      rw [List.append_assoc]
      rcases hf with rfl | hf
      · exact he.fractionLength_append
      · exact hf.fractionLength_append he.stops
    have hle := he.le_exponentLength (List.prefix_append exponent rest)
    have hpos : exponent.length ≠ 0 := by
      obtain ⟨_, _, _, rfl, -⟩ := he
      exact nofun
    rw [hfraction, List.append_assoc fraction, List.drop_left, if_neg (by omega),
      List.length_append, List.length_append]
    exact ⟨_, rfl, by simp only [and_true]; omega⟩

/-! ### Words and symbols -/

theorem spells_matchWord (hc : isWordStart c = true) (h : (matchWord c cs).kind? = some k) :
    k.Spells (c :: cs.take (matchWord c cs).more) := by
  have htake : cs.take (matchWord c cs).more = cs.takeWhile isWordPart :=
    (List.prefix_iff_eq_take.mp (List.takeWhile_prefix _)).symm
  rw [htake]
  unfold matchWord Match.kind? at h
  dsimp only at h
  split at h
  next k hk =>
    cases h
    have htext := congrArg String.toList (Keyword.spelling_of_ofText? hk)
    rw [String.toList_ofList] at htext
    rw [← htext]
    exact .keyword k
  next hk =>
    cases h
    have hword : IsWord (c :: cs.takeWhile isWordPart) :=
      isWord_iff.mpr ⟨c, _, rfl, hc, fun d => List.mem_takeWhile_imp⟩
    refine .ident hword fun k htext => ?_
    rw [← htext, String.ofList_toList, Keyword.ofText?_spelling] at hk
    cases hk

/-- A word that is a keyword is matched as it, and any other as a name. -/
theorem covers_matchWord (hd : ∀ d ∈ ds, isWordPart d = true) (h : ds <+: cs)
    (hk : (k = .ident ∧ Keyword.ofText? (String.ofList (c :: ds)) = none) ∨
      ∃ w, k = .keyword w ∧ Keyword.ofText? (String.ofList (c :: ds)) = some w) :
    (matchWord c cs).Covers k ds.length := by
  refine ⟨_, rfl, ?_⟩
  have hle := length_le_takeWhile hd h
  rcases Nat.lt_or_eq_of_le hle with hlt | heq
  · exact .inl hlt
  · have hds : ds = cs.takeWhile isWordPart :=
      (List.prefix_of_prefix_length_le h (List.takeWhile_prefix _) hle).eq_of_length heq
    refine .inr ⟨heq, ?_⟩
    rw [← hds]
    obtain ⟨rfl, hw⟩ | ⟨w, rfl, hw⟩ := hk <;> simp only [hw]

theorem spells_matchSymbol (h : (matchSymbol c cs).kind? = some k) :
    (matchSymbol c cs).more ≤ cs.length ∧ k.Spells (c :: cs.take (matchSymbol c cs).more) := by
  unfold matchSymbol at h ⊢
  split at h
  next s hs =>
    cases h
    have hfront := List.find?_some hs
    obtain ⟨rest, hrest⟩ := List.isPrefixOf_iff_prefix.mp hfront
    obtain ⟨d, ds, htext, -⟩ := symbol_start s
    rw [htext, List.cons_append] at hrest
    obtain ⟨rfl, rfl⟩ := List.cons.inj hrest
    have hlength : s.spelling.text.length - 1 = ds.length := by
      rw [← String.length_toList, htext, List.length_cons, Nat.add_sub_cancel]
    have hspells := Kind.Spells.symbol s
    rw [htext] at hspells
    simpa only [hlength, List.take_left, List.length_append, Nat.le_add_right, true_and]
      using hspells
  next => cases h

theorem covers_matchSymbol (s : Symbol) (hs : s.spelling.text.toList = c :: ds) (h : ds <+: cs) :
    (matchSymbol c cs).Covers (.symbol s) ds.length := by
  have hfront : s.spelling.text.toList.isPrefixOf (c :: cs) = true := by
    rw [List.isPrefixOf_iff_prefix, hs]
    exact List.cons_prefix_cons.mpr ⟨rfl, h⟩
  obtain ⟨t, ht⟩ : ∃ t, Symbol.all.find? (fun s => s.spelling.text.toList.isPrefixOf (c :: cs)) =
      some t := by
    apply Option.isSome_iff_exists.mp
    rw [List.find?_isSome]
    exact ⟨s, s.mem_all, hfront⟩
  have hmatch : matchSymbol c cs = ⟨.ok (.symbol t), t.spelling.text.length - 1⟩ := by
    unfold matchSymbol
    rw [ht]
  rw [hmatch]
  refine ⟨_, rfl, ?_⟩
  obtain ⟨htfront, before, after, hall, hbefore⟩ := List.find?_eq_some_iff_append.mp ht
  have hmem : s ∈ before ++ t :: after := hall ▸ s.mem_all
  have hle : s.spelling.text.length ≤ t.spelling.text.length := by
    rcases List.mem_append.mp hmem with hs | hs
    · -- nothing before the symbol that was found is at the front
      have hnot := hbefore s hs
      simp [hfront] at hnot
    · rcases List.mem_cons.mp hs with rfl | hs
      · exact Nat.le_refl _
      · have hpairs := Symbol.pairwise_all
        rw [hall, List.pairwise_append] at hpairs
        exact (List.pairwise_cons.mp hpairs.2.1).1 s hs
  have hlength : s.spelling.text.length = ds.length + 1 := by
    rw [← String.length_toList, hs, List.length_cons]
  rcases Nat.lt_or_eq_of_le hle with hlt | heq
  · left
    dsimp only
    omega
  · have hsame : t.spelling.text.toList = c :: ds := by
      rw [← hs]
      have hlists : t.spelling.text.toList.length = s.spelling.text.toList.length := by
        rw [String.length_toList, String.length_toList, heq]
      exact (List.prefix_of_prefix_length_le (List.isPrefixOf_iff_prefix.mp htfront)
        (List.isPrefixOf_iff_prefix.mp hfront) hlists.le).eq_of_length hlists
    have hkinds := (matchSymbol_spelling s hs).symm.trans (matchSymbol_spelling t hsame)
    simp only [Match.mk.injEq, Except.ok.injEq, and_true] at hkinds
    refine .inr ⟨?_, hkinds⟩
    dsimp only
    omega

/-! ### The longest match -/

/-- What is matched belongs to the grammar. -/
theorem spells_longestMatch (h : (longestMatch c cs).kind? = some k) :
    (longestMatch c cs).more ≤ cs.length ∧
      k.Spells (c :: cs.take (longestMatch c cs).more) := by
  unfold longestMatch at h ⊢
  split at h
  next hquote =>
    rw [if_pos hquote]
    unfold matchString at h ⊢
    split at h
    next n hn =>
      cases h
      obtain ⟨body, htake, hbody⟩ := stringBody_of_stringLength? hn
      refine ⟨(stringLength?_take hn).1, ?_⟩
      dsimp only
      rw [htake]
      exact .string ⟨c, body, rfl, isQuote_iff.mp hquote, hbody⟩
    next => cases h
  next hquote =>
    rw [if_neg hquote]
    split at h
    next hdigit =>
      rw [if_pos hdigit]
      exact ⟨(matchNumber_take c cs).1, spells_matchNumber hdigit h⟩
    next hdigit =>
      rw [if_neg hdigit]
      split at h
      next hword =>
        rw [if_pos hword]
        exact ⟨(matchWord_take c cs).1, spells_matchWord hword h⟩
      next hword =>
        rw [if_neg hword]
        exact spells_matchSymbol h

theorem longestMatch_of_quote (h : IsQuote c) (cs : List Char) :
    longestMatch c cs = matchString c cs := by
  unfold longestMatch
  rw [if_pos (isQuote_iff.mpr h)]

theorem longestMatch_of_digit (h : c.isDigit = true) (cs : List Char) :
    longestMatch c cs = matchNumber c cs := by
  have hquote : ¬ IsQuote c := by
    rintro (rfl | rfl) <;> exact absurd h (by decide)
  unfold longestMatch
  rw [if_neg (mt isQuote_iff.mp hquote), if_pos h]

theorem longestMatch_of_word (h : isWordStart c = true) (cs : List Char) :
    longestMatch c cs = matchWord c cs := by
  have hquote : ¬ IsQuote c := by
    rintro (rfl | rfl) <;> exact absurd h (by decide)
  have hdigit : ¬ c.isDigit = true := by
    intro hdigit
    have hrange : 48 ≤ c.val.toNat ∧ c.val.toNat ≤ 57 := by
      simpa [Char.isDigit, UInt32.le_iff_toNat_le] using hdigit
    rcases (Bool.or_eq_true _ _).mp h with h | h
    · rcases (Bool.or_eq_true _ _).mp h with h | h
      · have hupper : 'A'.val.toNat ≤ c.val.toNat := (of_decide_eq_true h).1
        have hA : 'A'.val.toNat = 65 := rfl
        omega
      · have hlower : 'a'.val.toNat ≤ c.val.toNat :=
          of_decide_eq_true ((Bool.and_eq_true _ _).mp h).1
        have ha : 'a'.val.toNat = 97 := rfl
        omega
    · rw [beq_iff_eq.mp h] at hdigit
      cases hdigit
  unfold longestMatch
  rw [if_neg (mt isQuote_iff.mp hquote), if_neg hdigit, if_pos h]

/-- A token at the front of a source is no longer than what is matched there. -/
theorem Kind.Spells.covered {t : List Char} (h : k.Spells t) (ht : t <+: c :: cs) :
    ∃ ds, t = c :: ds ∧ (longestMatch c cs).Covers k ds.length := by
  -- all tokens have a first character, which is then that of the source
  have hcons {d : Char} {ds : List Char} (ht : d :: ds <+: c :: cs) : d = c ∧ ds <+: cs :=
    List.cons_prefix_cons.mp ht
  cases h with
  | symbol s =>
    obtain ⟨d, ds, htext, hquote, hdigit, hword⟩ := symbol_start s
    rw [htext] at ht ⊢
    obtain ⟨rfl, hrest⟩ := hcons ht
    refine ⟨ds, rfl, ?_⟩
    unfold longestMatch
    rw [if_neg (mt isQuote_iff.mp hquote), if_neg (by simp [hdigit]), if_neg (by simp [hword])]
    exact covers_matchSymbol s htext hrest
  | keyword k =>
    obtain ⟨d, ds, htext, hword, hds⟩ := isWord_iff.mp (isWord_keyword k)
    rw [htext] at ht ⊢
    obtain ⟨rfl, hrest⟩ := hcons ht
    refine ⟨ds, rfl, ?_⟩
    rw [longestMatch_of_word hword cs]
    refine covers_matchWord hds hrest (.inr ⟨k, rfl, ?_⟩)
    rw [← htext, String.ofList_toList, Keyword.ofText?_spelling]
  | ident hident hne =>
    obtain ⟨d, ds, rfl, hword, hds⟩ := isWord_iff.mp hident
    obtain ⟨rfl, hrest⟩ := hcons ht
    refine ⟨ds, rfl, ?_⟩
    rw [longestMatch_of_word hword cs]
    refine covers_matchWord hds hrest (.inl ⟨rfl, ?_⟩)
    cases hk : Keyword.ofText? (String.ofList (d :: ds)) with
    | none => rfl
    | some k =>
      have htext := congrArg String.toList (Keyword.spelling_of_ofText? hk)
      rw [String.toList_ofList] at htext
      exact absurd htext (hne k)
  | int hint =>
    obtain ⟨d, ds, rfl, hdigit, hds⟩ := isDigits_iff.mp hint
    obtain ⟨rfl, hrest⟩ := hcons ht
    refine ⟨ds, rfl, ?_⟩
    rw [longestMatch_of_digit hdigit cs]
    exact covers_matchNumber_int hds hrest
  | float hwhole hfraction hexponent hne =>
    obtain ⟨d, ds, rfl, hdigit, hds⟩ := isDigits_iff.mp hwhole
    obtain ⟨rfl, hrest⟩ := hcons ht
    refine ⟨_, rfl, ?_⟩
    rw [longestMatch_of_digit hdigit cs]
    exact covers_matchNumber_float hds hfraction hexponent hne hrest
  | string hstring =>
    obtain ⟨d, body, rfl, hquote, hbody⟩ := hstring
    obtain ⟨rfl, rest, rfl⟩ := hcons ht
    refine ⟨_, rfl, ?_⟩
    have hn := hbody.stringLength?_append hquote.ne_backslash rest
    rw [longestMatch_of_quote hquote _, List.append_assoc, List.singleton_append]
    unfold matchString
    rw [hn]
    exact ⟨_, rfl, .inr ⟨by simp, rfl⟩⟩

theorem longest_of_kind? (h : (longestMatch c cs).kind? = some k) :
    Longest (c :: cs) k (c :: cs.take (longestMatch c cs).more) := by
  obtain ⟨hle, hspells⟩ := spells_longestMatch h
  refine ⟨hspells, List.cons_prefix_cons.mpr ⟨rfl, List.take_prefix _ _⟩, fun k' t hk' ht => ?_⟩
  obtain ⟨ds, rfl, k'', hk'', hcovers⟩ := hk'.covered ht
  obtain rfl : k = k'' := Option.some.inj (h.symm.trans hk'')
  rcases hcovers with hlt | ⟨heq, rfl⟩
  · left
    rw [List.length_cons, List.length_cons, List.length_take]
    omega
  · have hds : ds = cs.take (longestMatch c cs).more := by
      rw [← heq]
      exact List.prefix_iff_eq_take.mp (List.cons_prefix_cons.mp ht).2
    exact .inr ⟨by rw [← hds], rfl⟩

theorem not_spells_of_kind? (h : (longestMatch c cs).kind? = none) (k : Kind) (t : List Char)
    (hk : k.Spells t) : ¬ t <+: c :: cs := by
  intro ht
  obtain ⟨_, -, _, hsome, -⟩ := hk.covered ht
  rw [h] at hsome
  cases hsome

theorem cut_of_ok {n : Nat} (h : longestMatch c cs = ⟨.ok k, n⟩) (hk : k ≠ .int) :
    Cut (c :: cs) (.ok k) (c :: cs.take n) := by
  have hkind : (longestMatch c cs).kind? = some k := by rw [h]; rfl
  have hlongest := longest_of_kind? hkind
  rw [h] at hlongest
  exact .token hlongest fun hint => absurd hint hk

/-- A number is a float, an integer in range or one out of range. -/
theorem matchNumber_cases (c : Char) (cs : List Char) :
    (∃ n, matchNumber c cs = ⟨.ok .float, n⟩) ∨
    (∃ n, matchNumber c cs = ⟨.ok .int, n⟩ ∧
      numeral (c :: cs.take n) ≤ 2 ^ 63 - 1) ∨
    ∃ n, matchNumber c cs = ⟨.error (.integerTooLarge (String.ofList
        ((c :: cs.take n).filter (· != '_')))), n⟩ ∧
      2 ^ 63 - 1 < numeral (c :: cs.take n) := by
  unfold matchNumber
  simp only [ofDigits_eq_numeral, show maxInt = 2 ^ 63 - 1 from rfl]
  split
  next hnone =>
    obtain ⟨hfraction, hexponent⟩ := hnone
    rw [hexponent, hfraction, Nat.add_zero]
    split
    next hle => exact .inr (.inl ⟨_, rfl, hle⟩)
    next hle => exact .inr (.inr ⟨_, rfl, Nat.lt_of_not_le hle⟩)
  next => exact .inl ⟨_, rfl⟩

/-- The piece that is matched at the front of a source is the one that the grammar cuts off. -/
theorem cut_longestMatch (c : Char) (cs : List Char) :
    Cut (c :: cs) (longestMatch c cs).outcome (c :: cs.take (longestMatch c cs).more) := by
  by_cases hquote : IsQuote c
  · have hmatch := longestMatch_of_quote hquote cs
    unfold matchString at hmatch
    split at hmatch
    next n hn =>
      rw [hmatch]
      exact cut_of_ok hmatch nofun
    next =>
      have hkind : (longestMatch c cs).kind? = none := by rw [hmatch]; rfl
      rw [hmatch]
      dsimp only
      rw [List.take_length]
      exact .unclosedString rfl hquote (not_spells_of_kind? hkind)
  by_cases hdigit : c.isDigit = true
  · have hmatch := longestMatch_of_digit hdigit cs
    have hint (hkind : (longestMatch c cs).kind? = some .int) := longest_of_kind? hkind
    rcases matchNumber_cases c cs with ⟨n, hn⟩ | ⟨n, hn, hle⟩ | ⟨n, hn, hlt⟩ <;>
      rw [hn] at hmatch <;> rw [hmatch] at hint ⊢
    · exact cut_of_ok hmatch nofun
    · exact .token (hint rfl) fun _ => hle
    · exact .integerTooLarge (hint rfl) hlt
  by_cases hword : isWordStart c = true
  · have hmatch := longestMatch_of_word hword cs
    unfold matchWord at hmatch
    dsimp only at hmatch
    split at hmatch <;> rw [hmatch] <;> exact cut_of_ok hmatch nofun
  · have hmatch : longestMatch c cs = matchSymbol c cs := by
      unfold longestMatch
      rw [if_neg (mt isQuote_iff.mp hquote), if_neg hdigit, if_neg hword]
    unfold matchSymbol at hmatch
    split at hmatch
    next s hs =>
      rw [hmatch]
      exact cut_of_ok hmatch nofun
    next =>
      have hkind : (longestMatch c cs).kind? = none := by rw [hmatch]; rfl
      rw [hmatch]
      exact .unrecognized rfl hquote (not_spells_of_kind? hkind)

/-! ### Words -/

theorem isBlank_of_isDigit (h : c.isDigit = true) : Text.isBlank c = false := by
  have hrange : 48 ≤ c.toNat ∧ c.toNat ≤ 57 := by
    simpa [Char.isDigit, UInt32.le_iff_toNat_le] using h
  simp [Text.isBlank]
  omega

end Rill.Token
