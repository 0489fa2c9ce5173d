import Mathlib.Data.List.TakeWhile
import Rill.Proofs.Token.Legibility

/-! The grammar of tokens, and the piece at the front of a source as its longest match. -/
namespace Rill

theorem Keyword.ofText?_spelling (k : Keyword) : ofText? k.spelling.text = some k := by
  cases k <;> rfl

theorem Keyword.spelling_of_ofText? {k : Keyword} {text : String} (h : ofText? text = some k) :
    k.spelling.text = text := by
  simpa using List.find?_some h

theorem Symbol.mem_all (s : Symbol) : s ∈ all := by
  cases s <;> decide

/-- Symbols are tried from the longest to the shortest. -/
theorem Symbol.pairwise_all :
    all.Pairwise fun s t => t.spelling.text.length ≤ s.spelling.text.length := by
  decide

namespace Token

/-! ### The grammar -/

/-- A letter or an underscore, then letters, digits and underscores. -/
def IsWord (cs : List Char) : Prop :=
  ∃ c ds, cs = c :: ds ∧ (c.isAlpha = true ∨ c = '_') ∧ ∀ d ∈ ds, d.isAlphanum = true ∨ d = '_'

/-- A digit, then digits and underscores. -/
def IsDigits (cs : List Char) : Prop :=
  ∃ c ds, cs = c :: ds ∧ c.isDigit = true ∧ ∀ d ∈ ds, d.isDigit = true ∨ d = '_'

/-- A point and digits after it. -/
def IsFraction (cs : List Char) : Prop := ∃ ds, cs = '.' :: ds ∧ IsDigits ds

/-- A mark, an optional sign and at least one digit. -/
def IsExponent (cs : List Char) : Prop :=
  ∃ mark sign digits, cs = mark :: (sign ++ digits) ∧ (mark = 'e' ∨ mark = 'E') ∧
    (sign = [] ∨ sign = ['+'] ∨ sign = ['-']) ∧ digits ≠ [] ∧ ∀ d ∈ digits, d.isDigit = true

/-- What may stand between two marks: a backslash with any character after it, and any character but
the mark and a backslash. -/
inductive StringBody (mark : Char) : List Char → Prop
  | nil : StringBody mark []
  | escape {c cs} : StringBody mark cs → StringBody mark ('\\' :: c :: cs)
  | plain {c cs} : c ≠ mark → c ≠ '\\' → StringBody mark cs → StringBody mark (c :: cs)

/-- Either of the marks that open and close strings. -/
def IsQuote (c : Char) : Prop := c = '"' ∨ c = '\''

instance : DecidablePred IsQuote := fun c => inferInstanceAs (Decidable (c = '"' ∨ c = '\''))

/-- A body between two equal marks. -/
def IsString (cs : List Char) : Prop :=
  ∃ mark body, cs = mark :: (body ++ [mark]) ∧ IsQuote mark ∧ StringBody mark body

/-- The texts that are tokens of a kind, integers of any size among them. -/
inductive Kind.Spells : Kind → List Char → Prop
  | symbol (s : Symbol) : Spells (.symbol s) s.spelling.text.toList
  | keyword (k : Keyword) : Spells (.keyword k) k.spelling.text.toList
  | ident {cs} : IsWord cs → (∀ k : Keyword, k.spelling.text.toList ≠ cs) → Spells .ident cs
  | int {cs} : IsDigits cs → Spells .int cs
  | float {whole fraction exponent} : IsDigits whole → (fraction = [] ∨ IsFraction fraction) →
      (exponent = [] ∨ IsExponent exponent) → fraction ++ exponent ≠ [] →
      Spells .float (whole ++ (fraction ++ exponent))
  | string {cs} : IsString cs → Spells .string cs

/-- The text is the longest one at the front of a source that is a token, and of this kind only. -/
structure Longest (source : List Char) (kind : Kind) (text : List Char) : Prop where
  spells : kind.Spells text
  front : text <+: source
  longest : ∀ (k : Kind) (t : List Char), k.Spells t → t <+: source →
    t.length < text.length ∨ (t = text ∧ k = kind)

/-- How the grammar cuts a source: the piece at the front, and whether it is a token. An integer out
of range is none, nor is a quote that opens no string, nor a character that starts nothing. -/
inductive Cut (source : List Char) : Except Fault Kind → List Char → Prop
  | token {kind text} : Longest source kind text →
      (kind = .int → numeral text ≤ 2 ^ 63 - 1) →
      Cut source (.ok kind) text
  | integerTooLarge {text} : Longest source .int text →
      2 ^ 63 - 1 < numeral text →
      Cut source (.error (.integerTooLarge (String.ofList (text.filter (· != '_'))))) text
  | unclosedString {mark rest} : source = mark :: rest → IsQuote mark →
      (∀ (k : Kind) (t : List Char), k.Spells t → ¬ t <+: source) →
      Cut source (.error .unclosedString) source
  | unrecognized {c rest} : source = c :: rest → ¬ IsQuote c →
      (∀ (k : Kind) (t : List Char), k.Spells t → ¬ t <+: source) →
      Cut source (.error (.unrecognized c)) [c]

variable {c : Char} {cs ds : List Char} {k : Kind}

/-! ### Runs of characters -/

theorem takeWhile_append_of_stop {p : Char → Bool} (hp : ∀ d ∈ ds, p d = true)
    (hc : ∀ c ∈ cs.head?, p c = false) : (ds ++ cs).takeWhile p = ds := by
  rw [List.takeWhile_append_of_pos hp]
  cases cs with
  | nil => simp
  | cons c cs => simp [hc c rfl]

theorem length_le_takeWhile {p : Char → Bool} (hp : ∀ d ∈ ds, p d = true) (h : ds <+: cs) :
    ds.length ≤ (cs.takeWhile p).length := by
  obtain ⟨rest, rfl⟩ := h
  rw [List.takeWhile_append_of_pos hp, List.length_append]
  omega

theorem isDigitPart_of_isDigit (h : c.isDigit = true) : isDigitPart c = true := by
  simp [isDigitPart, h]

theorem isWord_iff :
    IsWord cs ↔ ∃ c ds, cs = c :: ds ∧ isWordStart c = true ∧ ∀ d ∈ ds, isWordPart d = true := by
  simp only [IsWord, isWordStart, isWordPart, Bool.or_eq_true, beq_iff_eq]

theorem isDigits_iff :
    IsDigits cs ↔ ∃ c ds, cs = c :: ds ∧ c.isDigit = true ∧ ∀ d ∈ ds, isDigitPart d = true := by
  simp only [IsDigits, isDigitPart, Bool.or_eq_true, beq_iff_eq]

/-! ### Numbers -/

theorem isDigit_of_mem_toString {n : Nat} (hc : c ∈ (toString n).toList) : c.isDigit = true := by
  rw [Nat.toString_eq_repr, Nat.toList_repr] at hc
  exact Nat.isDigit_of_mem_toDigits (by decide) (Nat.le_refl 10) hc

theorem isDigits_toString (n : Nat) : IsDigits (toString n).toList := by
  have hne : (toString n).toList ≠ [] := by
    rw [Nat.toString_eq_repr, Nat.toList_repr]
    exact Nat.toDigits_ne_nil
  obtain ⟨c, cs, hcs⟩ := List.exists_cons_of_ne_nil hne
  have hdigits (d : Char) (hd : d ∈ c :: cs) : d.isDigit = true :=
    isDigit_of_mem_toString (hcs ▸ hd)
  exact ⟨c, cs, hcs, hdigits c List.mem_cons_self,
    fun d hd => .inl (hdigits d (List.mem_cons_of_mem _ hd))⟩

theorem numeral_toString (n : Nat) : numeral (toString n).toList = n := by
  have hfilter : (toString n).toList.filter (· != '_') = Nat.toDigits 10 n := by
    rw [← Nat.toList_repr, ← Nat.toString_eq_repr, List.filter_eq_self]
    intro c hc
    rw [bne_iff_ne]
    rintro rfl
    cases isDigit_of_mem_toString hc
  rw [← ofDigits_eq_numeral, hfilter]
  exact Nat.ofDigitChars_toDigits (by decide) (Nat.le_refl 10)

theorem fractionLength_cons (hd : c.isDigit = true) :
    fractionLength ('.' :: c :: cs) = 2 + (cs.takeWhile isDigitPart).length := by
  rw [fractionLength, if_pos hd]

theorem isFraction_take (h : fractionLength cs ≠ 0) :
    IsFraction (cs.take (fractionLength cs)) := by
  unfold fractionLength at h
  split at h
  next c cs =>
    split at h
    next hc =>
      refine ⟨c :: cs.takeWhile isDigitPart, ?_,
        isDigits_iff.mpr ⟨c, _, rfl, hc, fun d => List.mem_takeWhile_imp⟩⟩
      have htake := List.prefix_iff_eq_take.mp (List.takeWhile_prefix (l := cs) isDigitPart)
      rw [fractionLength_cons hc, Nat.add_comm, List.take_succ_cons, List.take_succ_cons, ← htake]
    next => exact absurd rfl h
  next => exact absurd rfl h

theorem IsFraction.le_fractionLength (h : IsFraction ds) (hds : ds <+: cs) :
    ds.length ≤ fractionLength cs := by
  obtain ⟨_, rfl, hds'⟩ := h
  obtain ⟨c, ds, rfl, hc, hd⟩ := isDigits_iff.mp hds'
  obtain ⟨rest, rfl⟩ := hds
  have hle := length_le_takeWhile hd (List.prefix_append ds rest)
  rw [List.cons_append, List.cons_append, fractionLength_cons hc, List.length_cons,
    List.length_cons]
  omega

/-- A fraction ends where no more digits follow. -/
theorem IsFraction.fractionLength_append (h : IsFraction ds)
    (hcs : ∀ c ∈ cs.head?, isDigitPart c = false) : fractionLength (ds ++ cs) = ds.length := by
  obtain ⟨_, rfl, hds⟩ := h
  obtain ⟨c, ds, rfl, hc, hd⟩ := isDigits_iff.mp hds
  rw [List.cons_append, List.cons_append, fractionLength_cons hc, takeWhile_append_of_stop hd hcs,
    List.length_cons, List.length_cons, Nat.add_comm]

theorem IsFraction.stops (h : IsFraction ds) : ∀ c ∈ (ds ++ cs).head?, isDigitPart c = false := by
  obtain ⟨_, rfl, -⟩ := h
  rintro c ⟨⟩
  decide

theorem signLength_append {sign digits rest : List Char}
    (hsign : sign = [] ∨ sign = ['+'] ∨ sign = ['-']) (hne : digits ≠ [])
    (hdigits : ∀ d ∈ digits, d.isDigit = true) :
    signLength (sign ++ (digits ++ rest)) = sign.length := by
  rcases hsign with rfl | rfl | rfl
  · cases digits with
    | nil => exact absurd rfl hne
    | cons d digits =>
      have hd := hdigits d List.mem_cons_self
      have hplus : d ≠ '+' := by
        rintro rfl
        simp at hd
      have hminus : d ≠ '-' := by
        rintro rfl
        simp at hd
      simp [signLength, hplus, hminus]
  · rfl
  · rfl

theorem take_signLength (cs : List Char) :
    cs.take (signLength cs) = [] ∨ cs.take (signLength cs) = ['+'] ∨
      cs.take (signLength cs) = ['-'] := by
  unfold signLength
  split <;> simp

theorem isExponent_take (h : exponentLength cs ≠ 0) :
    IsExponent (cs.take (exponentLength cs)) := by
  match cs with
  | [] => exact absurd rfl h
  | c :: cs =>
    rw [exponentLength] at h ⊢
    split at h
    next hexp =>
      simp only [Bool.and_eq_true, Bool.or_eq_true, beq_iff_eq, bne_iff_ne] at hexp
      obtain ⟨hmark, hne⟩ := hexp
      have hlength := signLength_le cs
      generalize hd : (cs.drop (signLength cs)).takeWhile Char.isDigit = digits at hne ⊢
      have hdigits : digits = (cs.drop (signLength cs)).take digits.length := by
        subst hd
        exact List.prefix_iff_eq_take.mp (List.takeWhile_prefix _)
      refine ⟨c, cs.take (signLength cs), digits, ?_, hmark, take_signLength cs,
        fun hnil => hne (by rw [hnil]; rfl), ?_⟩
      · rw [if_pos (by simp [hmark, hne]), Nat.add_assoc, Nat.add_comm 1, List.take_succ_cons,
          List.take_add, ← hdigits]
      · subst hd
        exact fun d => List.mem_takeWhile_imp
    next => exact absurd rfl h

theorem IsExponent.le_exponentLength (h : IsExponent ds) (hds : ds <+: cs) :
    ds.length ≤ exponentLength cs := by
  obtain ⟨mark, sign, digits, rfl, hmark, hsign, hne, hdigits⟩ := h
  obtain ⟨rest, rfl⟩ := hds
  have hle := length_le_takeWhile hdigits (List.prefix_append digits rest)
  have hpos : 0 < digits.length := List.length_pos_iff.mpr hne
  rw [List.cons_append, List.append_assoc, exponentLength, signLength_append hsign hne hdigits,
    List.drop_left, List.length_cons, List.length_append, if_pos ?_]
  · omega
  · have hcount : ((digits ++ rest).takeWhile Char.isDigit).length ≠ 0 := by omega
    simp [hmark, hcount]

theorem IsExponent.stops (h : IsExponent ds) : ∀ c ∈ (ds ++ cs).head?, isDigitPart c = false := by
  obtain ⟨mark, sign, digits, rfl, hmark, -⟩ := h
  rintro c ⟨⟩
  rcases hmark with rfl | rfl <;> decide

theorem IsExponent.fractionLength_append (h : IsExponent ds) : fractionLength (ds ++ cs) = 0 := by
  obtain ⟨mark, sign, digits, rfl, hmark, -⟩ := h
  rcases hmark with rfl | rfl <;> rfl

/-! ### Strings, words and symbols -/

theorem stringBody_of_stringLength? {mark : Char} {n : Nat} (h : stringLength? mark cs = some n) :
    ∃ body, cs.take n = body ++ [mark] ∧ StringBody mark body := by
  fun_induction stringLength? mark cs generalizing n with
  | case1 => cases h
  | case2 d cs ih =>
    obtain ⟨m, hm, rfl⟩ := Option.map_eq_some_iff.mp h
    obtain ⟨body, htake, hbody⟩ := ih hm
    refine ⟨'\\' :: d :: body, ?_, .escape hbody⟩
    rw [List.take_succ_cons, List.take_succ_cons, htake, List.cons_append, List.cons_append]
  | case3 cs =>
    cases h
    exact ⟨[], rfl, .nil⟩
  | case4 c cs hescape hc ih =>
    obtain ⟨m, hm, rfl⟩ := Option.map_eq_some_iff.mp h
    obtain ⟨body, htake, hbody⟩ := ih hm
    have hne : c ≠ '\\' := by
      rintro rfl
      cases cs with
      | nil => cases hm
      | cons d cs => exact hescape d cs rfl rfl
    refine ⟨c :: body, ?_, .plain hc hne hbody⟩
    rw [List.take_succ_cons, htake, List.cons_append]

theorem StringBody.stringLength?_append {mark : Char} (hmark : mark ≠ '\\')
    (h : StringBody mark ds) (cs : List Char) :
    stringLength? mark (ds ++ mark :: cs) = some (ds.length + 1) := by
  induction h with
  | nil => rw [List.nil_append, stringLength?_cons hmark, if_pos rfl, List.length_nil]
  | escape _ ih =>
    rw [List.cons_append, List.cons_append, stringLength?, ih]
    rfl
  | plain hc hne _ ih =>
    rw [List.cons_append, stringLength?_cons hne, if_neg hc, ih]
    rfl

theorem isQuote_iff : (c == '"' || c == '\'') = true ↔ IsQuote c := by
  simp [IsQuote]

theorem IsQuote.ne_backslash (h : IsQuote c) : c ≠ '\\' := by
  rcases h with rfl | rfl <;> decide

theorem isWord_keyword (k : Keyword) : IsWord k.spelling.text.toList := by
  rw [isWord_iff]
  cases k <;> exact ⟨_, _, rfl, by decide, List.all_eq_true.mp rfl⟩

/-- No symbol starts like a string, a number or a word. -/
theorem symbol_start (s : Symbol) : ∃ c cs, s.spelling.text.toList = c :: cs ∧ ¬ IsQuote c ∧
    c.isDigit = false ∧ isWordStart c = false := by
  cases s <;> exact ⟨_, _, rfl, by decide, by decide, by decide⟩

end Token
end Rill
