import Rill.Proofs.Datum
import Rill.Proofs.Syntax.Completeness.Statements
import Rill.Proofs.Text.Quoting
import Rill.Proofs.Token.LongestMatch

/-! The texts of plain data are literals: which tokens they consist of, and how these are read. -/
namespace Rill

namespace Token

/-- Before what follows, these characters are cut into tokens with these words. -/
def Cuts (cs : List Char) (ws : List Word) (rest : List Char) : Prop :=
  ∀ offset, ∃ (ts : List Token) (stop : Nat),
    piecesFrom offset (cs ++ rest) = ts.map .ok ++ piecesFrom stop rest ∧ ts.map word = ws

/-- What follows does not go on with a word or a number. -/
def Ends (rest : List Char) : Prop := ∀ c ∈ rest.head?, isWordPart c = false ∧ c ≠ '.'

theorem ends_cons {c : Char} {rest : List Char} (hc : isWordPart c = false) (hdot : c ≠ '.') :
    Ends (c :: rest) := by
  rintro _ ⟨⟩
  exact ⟨hc, hdot⟩

namespace Cuts

variable {c : Char} {cs ds rest : List Char} {ws vs : List Word} {k : Kind}

theorem nil : Cuts [] [] rest := fun offset => ⟨[], offset, rfl, rfl⟩

theorem append (h : Cuts cs ws (ds ++ rest)) (h' : Cuts ds vs rest) :
    Cuts (cs ++ ds) (ws ++ vs) rest := by
  intro offset
  obtain ⟨ts, stop, hts, rfl⟩ := h offset
  obtain ⟨us, stop', hus, rfl⟩ := h' stop
  refine ⟨ts ++ us, stop', ?_, List.map_append⟩
  rw [List.append_assoc, hts, hus, List.map_append, List.append_assoc]

theorem blank (h : Cuts cs ws rest) : Cuts (' ' :: cs) ws rest := by
  intro offset
  rw [List.cons_append, piecesFrom_blank]
  exact h (offset + 1)

theorem token (hb : Text.isBlank c = false) (hc : c ≠ '#')
    (h : longestMatch c (cs ++ rest) = ⟨.ok k, cs.length⟩) :
    Cuts (c :: cs) [⟨k, String.ofList (c :: cs)⟩] rest := by
  intro offset
  obtain ⟨span, hpieces⟩ := piecesFrom_cons offset rest hb hc h
  exact ⟨[⟨k, String.ofList (c :: cs), span⟩], span.stop, hpieces, rfl⟩

end Cuts

variable {rest : List Char}

/-! ### Single tokens -/

/-- The symbols that begin no other symbol. -/
theorem cuts_punctuation {s : Symbol} (rest : List Char)
    (h : s ∈ [.leftBracket, .rightBracket, .leftBrace, .rightBrace, .comma, .colon]) :
    Cuts s.spelling.text.toList [⟨.symbol s, s.spelling.text⟩] rest := by
  simp only [List.mem_cons, List.not_mem_nil, or_false] at h
  rcases h with rfl | rfl | rfl | rfl | rfl | rfl <;> exact .token (by decide) (by decide) rfl

theorem cuts_minus {c : Char} (hc : c.isDigit = true) (cs : List Char) :
    Cuts ['-'] [⟨.symbol .minus, "-"⟩] (c :: cs) := by
  refine .token (by decide) (by decide) ?_
  have hprefix : ['='].isPrefixOf (c :: cs) = false := by
    rw [List.isPrefixOf, Bool.and_eq_false_iff, beq_eq_false_iff_ne]
    left
    rintro rfl
    cases hc
  have hfind : Symbol.all.find? (fun s => s.spelling.text.toList.isPrefixOf ('-' :: c :: cs)) =
      some .minus := by
    simp [Symbol.all, Symbol.spelling, hprefix]
  change matchSymbol '-' (c :: cs) = _
  rw [matchSymbol, hfind]
  rfl

theorem cuts_keyword (k : Keyword) (hrest : Ends rest) :
    Cuts k.spelling.text.toList [⟨.keyword k, k.spelling.text⟩] rest := by
  have hstart : ∃ c cs, k.spelling.text.toList = c :: cs ∧ Text.isBlank c = false ∧ c ≠ '#' ∧
      isWordStart c = true ∧ ∀ d ∈ cs, isWordPart d = true := by
    cases k <;> exact ⟨_, _, rfl, by decide, by decide, by decide, List.all_eq_true.mp rfl⟩
  obtain ⟨c, cs, htext, hb, hhash, hc, hcs⟩ := hstart
  have htake : (cs ++ rest).takeWhile isWordPart = cs :=
    takeWhile_append_of_stop hcs fun d hd => (hrest d hd).1
  have hword : String.ofList (c :: cs) = k.spelling.text := by rw [← htext, String.ofList_toList]
  have hmatch : longestMatch c (cs ++ rest) = ⟨.ok (.keyword k), cs.length⟩ := by
    rw [longestMatch_of_word hc, matchWord, htake, hword, Keyword.ofText?_spelling]
  rw [htext, ← hword]
  exact .token hb hhash hmatch

/-! ### Integers -/

theorem fractionLength_of_ends (h : Ends rest) : fractionLength rest = 0 := by
  unfold fractionLength
  split
  · exact absurd rfl (h '.' rfl).2
  · rfl

theorem exponentLength_of_ends (h : Ends rest) : exponentLength rest = 0 := by
  cases rest with
  | nil => rfl
  | cons c rest =>
    have hmark : ¬ (c == 'e' || c == 'E') = true := by
      intro hc
      have hpart := (h c rfl).1
      rcases (Bool.or_eq_true _ _).mp hc with hc | hc <;> rw [beq_iff_eq.mp hc] at hpart <;>
        cases hpart
    rw [exponentLength, if_neg (by simp [Bool.not_eq_true _ ▸ hmark])]

theorem intValue_toString (n : Nat) : intValue (toString n) = n := by
  rw [intValue_eq_numeral, numeral_toString]

/-- An integer that fits is one token. -/
theorem cuts_int {n : Nat} (hn : n ≤ maxInt) (hrest : Ends rest) :
    (∃ c cs, (toString n).toList = c :: cs ∧ c.isDigit = true) ∧
      Cuts (toString n).toList [⟨.int, toString n⟩] rest := by
  have hdigits : ∀ c ∈ (toString n).toList, c.isDigit = true := fun c => isDigit_of_mem_toString
  have hvalue : Decimal.ofDigits ((toString n).toList.filter (· != '_')) = n := by
    rw [ofDigits_eq_numeral, numeral_toString]
  have htext := String.ofList_toList (s := toString n)
  obtain ⟨c, cs, hcs, -⟩ := isDigits_toString n
  rw [hcs] at hdigits hvalue htext ⊢
  obtain ⟨hc, hds⟩ := List.forall_mem_cons.mp hdigits
  have hstop : ∀ d ∈ rest.head?, isDigitPart d = false := by
    intro d hd
    have hpart := (hrest d hd).1
    rw [isWordPart, Bool.or_eq_false_iff] at hpart
    rw [isDigitPart, (Bool.or_eq_false_iff.mp hpart.1).2, hpart.2]
    rfl
  have htake : (cs ++ rest).takeWhile isDigitPart = cs :=
    takeWhile_append_of_stop (fun d hd => isDigitPart_of_isDigit (hds d hd)) hstop
  have hmatch : longestMatch c (cs ++ rest) = ⟨.ok .int, cs.length⟩ := by
    rw [longestMatch_of_digit hc, matchNumber]
    simp only [htake, List.drop_left, List.take_left, fractionLength_of_ends hrest,
      exponentLength_of_ends hrest, Nat.add_zero, and_self, if_true, hvalue, if_pos hn]
  refine ⟨⟨c, cs, rfl, hc⟩, ?_⟩
  rw [← htext]
  refine .token (isBlank_of_isDigit hc) ?_ hmatch
  rintro rfl
  cases hc

theorem cuts_quote (t : String) (rest : List Char) :
    Cuts (Text.quote t).toList [⟨.string, Text.quote t⟩] rest := by
  obtain ⟨cs, htext, hmatch⟩ := longestMatch_quote t rest
  rw [htext, ← String.ofList_toList (s := Text.quote t), htext]
  exact .token (by decide) (by decide) hmatch

/-- A text in quotes is one token. -/
theorem pieces_quote (t : String) :
    ∃ span, pieces (Text.quote t) = [.ok ⟨.string, Text.quote t, span⟩] := by
  obtain ⟨ts, stop, hts, hws⟩ := cuts_quote t [] 0
  rw [List.append_nil, piecesFrom_nil, List.append_nil] at hts
  obtain ⟨⟨kind, text, span⟩, rfl, htoken⟩ := List.map_eq_singleton_iff.mp hws
  obtain ⟨rfl, rfl⟩ := Word.mk.inj htoken
  exact ⟨span, hts⟩

end Token

/-! ### Words and expressions -/

def Symbol.word (s : Symbol) : Token.Word := ⟨.symbol s, s.spelling.text⟩

def Keyword.word (k : Keyword) : Token.Word := ⟨.keyword k, k.spelling.text⟩

namespace Datum

open Syntax (Expr)
open Token (Word Cuts Ends)

mutual

/-- The words of the text of a datum. -/
def words : Datum → List Word
  | .null => [Keyword.nullWord.word]
  | .bool b => [(if b then Keyword.trueWord else .falseWord).word]
  | .int i =>
    if i.toInt < 0 then [Symbol.minus.word, ⟨.int, toString i.toInt.natAbs⟩]
    else [⟨.int, toString i.toInt.natAbs⟩]
  | .str s => [⟨.string, Text.quote s⟩]
  | .list ds => Symbol.leftBracket.word :: itemWords ds ++ [Symbol.rightBracket.word]
  | .dict ds => Symbol.leftBrace.word :: entryWords ds ++ [Symbol.rightBrace.word]

def itemWords : List Datum → List Word
  | [] => []
  | [d] => d.words
  | d :: e :: ds => d.words ++ Symbol.comma.word :: itemWords (e :: ds)

def entryWords : List (Datum × Datum) → List Word
  | [] => []
  | [(k, d)] => k.words ++ Symbol.colon.word :: d.words
  | (k, d) :: e :: ds =>
    k.words ++ Symbol.colon.word :: d.words ++ Symbol.comma.word :: entryWords (e :: ds)

end

mutual

/-- The expression that the text of a datum spells. A negative integer is one with a minus before it. -/
def expr : Datum → Expr
  | .null => .atom .null default
  | .bool b => .atom (.bool b) default
  | .int i =>
    let size := Expr.atom (.int (Int64.ofNat i.toInt.natAbs)) default
    if i.toInt < 0 then .unary .minus size default else size
  | .str s => .atom (.string s) default
  | .list ds => .list (exprs ds) default
  | .dict ds => .dict (entryExprs ds) default

def exprs : List Datum → List Expr
  | [] => []
  | d :: ds => d.expr :: exprs ds

def entryExprs : List (Datum × Datum) → List (Expr × Expr)
  | [] => []
  | (k, d) :: ds => (k.expr, d.expr) :: entryExprs ds

end

mutual

theorem spelled : (d : Datum) → d.expr.Spelled 1 d.words
  | .null => .nullWord
  | .bool true => .trueWord
  | .bool false => .falseWord
  | .int i => by
    have hsize : (Expr.atom (.int (Int64.ofNat i.toInt.natAbs)) default).Spelled 1
        [⟨.int, toString i.toInt.natAbs⟩] := by
      have hint : Expr.Spelled 1 _ _ := .int (t := toString i.toInt.natAbs) (s := default)
      rwa [← Token.intValue_eq_numeral, Token.intValue_toString] at hint
    unfold expr words
    split
    · have hminus : Token.Kind.symbol .minus ∈ UnaryOp.kinds .minus := List.mem_singleton_self _
      exact .unary hminus hsize
    · exact hsize
  | .str s => by
    have hstring : Expr.Spelled 1 _ _ := .string (t := Text.quote s) (s := default)
    rwa [Text.unescape_quote] at hstring
  | .list ds => .list (spelledAll ds)
  | .dict ds => .dict (spelledEntries ds)

theorem spelledAll : (ds : List Datum) → Syntax.ItemsSpelled 1 (exprs ds) (itemWords ds)
  | [] => .nil
  | [d] => .last (spelled d)
  | d :: e :: ds => .cons (spelled d) (spelledAll (e :: ds))

theorem spelledEntries :
    (ds : List (Datum × Datum)) → Syntax.EntriesSpelled 1 (entryExprs ds) (entryWords ds)
  | [] => .nil
  | [(k, d)] => .last (spelled k) (spelled d)
  | (k, d) :: e :: ds => .cons (spelled k) (spelled d) (spelledEntries (e :: ds))

end

mutual

theorem ordered : (d : Datum) → d.expr.Ordered
  | .null | .bool _ | .str _ => trivial
  | .int i => by
    unfold expr
    split
    · exact ⟨fun _ h => absurd h List.not_mem_nil, trivial⟩
    · exact trivial
  | .list ds => orderedAll ds
  | .dict ds => orderedEntries ds

theorem orderedAll : (ds : List Datum) → Syntax.AllOrdered (exprs ds)
  | [] => trivial
  | d :: ds => ⟨ordered d, orderedAll ds⟩

theorem orderedEntries : (ds : List (Datum × Datum)) → Syntax.EntriesOrdered (entryExprs ds)
  | [] => trivial
  | (k, d) :: ds => ⟨ordered k, ordered d, orderedEntries ds⟩

end

end Datum

/-! ### The tokens of a text -/

namespace Store

open Datum (texts entryTexts itemWords entryWords)
open Token (Cuts Ends)

/-- A separator with a blank after it ends what comes before. -/
theorem cuts_separated {text tail : String} {ws vs : List Token.Word} {rest : List Char}
    (s : Symbol) (hs : s = .comma ∨ s = .colon)
    (h : ∀ rest, Ends rest → Cuts text.toList ws rest) (h' : Cuts tail.toList vs rest) :
    Cuts (text ++ (s.spelling.text ++ " ") ++ tail).toList (ws ++ s.word :: vs) rest := by
  have htext : (text ++ (s.spelling.text ++ " ") ++ tail).toList =
      text.toList ++ (s.spelling.text.toList ++ ' ' :: tail.toList) := by
    simp only [String.toList_append, List.append_assoc]
    rfl
  have hseparator : Cuts s.spelling.text.toList [s.word] (' ' :: tail.toList ++ rest) := by
    apply Token.cuts_punctuation
    rcases hs with rfl | rfl <;> simp
  rw [htext]
  refine .append (h _ ?_) (.append hseparator h'.blank)
  rcases hs with rfl | rfl <;> exact Token.ends_cons (by decide) (by decide)

/-- All integers but the least one have a literal for their size. -/
theorem natAbs_le_maxInt {i : Int64} (h : Int64.minValue < i) : i.toInt.natAbs ≤ Token.maxInt := by
  have hmin := Int64.lt_iff_toInt_lt.mp h
  rw [Int64.toInt_minValue] at hmin
  have hmax := Int64.toInt_lt i
  unfold Token.maxInt
  omega

theorem cuts_integer {i : Int64} {rest : List Char} (h : Int64.minValue < i) (hrest : Ends rest) :
    Cuts (Datum.int i).text.toList (Datum.int i).words rest := by
  obtain ⟨⟨c, cs, htext, hc⟩, hcuts⟩ := Token.cuts_int (natAbs_le_maxInt h) hrest
  unfold Datum.text Datum.words
  rw [Int.toString_eq_repr, Int.repr_eq_if]
  by_cases hneg : i.toInt < 0
  · have habs : (-i.toInt).toNat = i.toInt.natAbs := by omega
    have hminus : Cuts ['-'] [Symbol.minus.word] ((toString i.toInt.natAbs).toList ++ rest) := by
      rw [htext]
      exact Token.cuts_minus hc (cs ++ rest)
    rw [if_pos hneg, if_neg (by omega), habs, String.toList_append, ← Nat.toString_eq_repr]
    exact .append hminus hcuts
  · have habs : i.toInt.toNat = i.toInt.natAbs := by omega
    rw [if_neg hneg, if_pos (by omega), habs, ← Nat.toString_eq_repr]
    exact hcuts

variable {s : Store}

mutual

theorem Holds.cuts {v : Value} {d : Datum} (h : s.Holds v d) {rest : List Char}
    (hrest : Ends rest) : Cuts d.text.toList d.words rest := by
  cases h with
  | null => exact Token.cuts_keyword .nullWord hrest
  | @bool b =>
    cases b with
    | true => exact Token.cuts_keyword .trueWord hrest
    | false => exact Token.cuts_keyword .falseWord hrest
  | int hi => exact cuts_integer hi hrest
  | str => exact Token.cuts_quote _ rest
  | list _ hall =>
    rw [Datum.text, Datum.words, String.toList_append, String.toList_append]
    exact .append (.append (Token.cuts_punctuation (s := .leftBracket) _ (by decide))
      (hall.cuts (Token.ends_cons (by decide) (by decide))))
      (Token.cuts_punctuation (s := .rightBracket) rest (by decide))
  | dict _ _ hentries =>
    rw [Datum.text, Datum.words, String.toList_append, String.toList_append]
    exact .append (.append (Token.cuts_punctuation (s := .leftBrace) _ (by decide))
      (hentries.cuts (Token.ends_cons (by decide) (by decide))))
      (Token.cuts_punctuation (s := .rightBrace) rest (by decide))

theorem HoldsAll.cuts {vs : List Value} {ds : List Datum} (h : s.HoldsAll vs ds)
    {rest : List Char} (hrest : Ends rest) :
    Cuts (", ".intercalate (texts ds)).toList (itemWords ds) rest := by
  cases h with
  | nil => exact .nil
  | @cons _ d _ ds hv hvs =>
    cases ds with
    | nil =>
      rw [texts, texts, String.intercalate_singleton]
      exact hv.cuts hrest
    | cons e ds =>
      have htail := hvs.cuts hrest
      rw [texts] at htail
      rw [texts, texts, String.intercalate_cons_cons, itemWords]
      exact cuts_separated .comma (.inl rfl) (fun _ => hv.cuts) htail

theorem HoldsEntries.cuts {es : List (Key × Value)} {ds : List (Datum × Datum)}
    (h : s.HoldsEntries es ds) {rest : List Char} (hrest : Ends rest) :
    Cuts (", ".intercalate (entryTexts ds)).toList (entryWords ds) rest := by
  cases h with
  | nil => exact .nil
  | @cons _ k _ d _ ds hk hv hes =>
    have hentry (rest : List Char) (hrest : Ends rest) :
        Cuts (k.text ++ ": " ++ d.text).toList (k.words ++ Symbol.colon.word :: d.words) rest :=
      cuts_separated .colon (.inr rfl) (fun _ => hk.cuts) (hv.cuts hrest)
    cases ds with
    | nil =>
      rw [entryTexts, entryTexts, String.intercalate_singleton]
      exact hentry rest hrest
    | cons e ds =>
      have htail := hes.cuts hrest
      rw [entryTexts] at htail
      rw [entryTexts, entryTexts, String.intercalate_cons_cons, entryWords]
      exact cuts_separated .comma (.inl rfl) hentry htail

end

end Store

/-! ### Reading -/

namespace Syntax

open Token (Word Cuts)

theorem Input.shows_of_cuts {text : String} {ws : List Word} (h : Cuts text.toList ws []) :
    (Input.ofSource text).Shows ws := by
  obtain ⟨ts, stop, hts, hws⟩ := h 0
  rw [List.append_nil, Token.piecesFrom_nil, List.append_nil] at hts
  exact ⟨ts, hts, hws, rfl⟩

namespace Parser

variable {e : Expr} {ws : List Word}

/-- At the end of a source an expression needs no semicolon. -/
theorem takes_statement_last (hs : e.Spelled 1 ws) (ho : e.Ordered) :
    Takes statement ws [] fun s => ∃ e', s = .expr e' ∧ e'.bare = e.bare := by
  have hend : Grammar.Closing (firstKind []) := ⟨rfl, rfl, by simp [firstKind]⟩
  obtain ⟨size, hsize⟩ := Nat.exists_eq_add_one_of_ne_zero (Nat.ne_of_gt hs.begins.pos)
  have hbare : Takes (Grammar.bareStatement (.ofDepth size)) ws [] fun s =>
      ∃ e', s = .expr e' ∧ e'.bare = e.bare := by
    intro i hi
    rw [Grammar.bareStatement_eq hi hs.begins]
    have htakes := Grammar.takes_sequenceRule (Grammar.reads_ofDepth size) (.one hs) ho
      (Nat.le_of_eq hsize) hend
    rw [List.append_nil] at htakes
    exact Takes.bind htakes (fun e' he' => .pure ⟨e', rfl, he'⟩) i hi
  refine .bind takes_remaining fun n hn => ?_
  rw [hn, hsize]
  refine .bind hbare fun s hs => .bind (takes_skip_false (by simp [firstKind])) fun _ _ => .pure hs

theorem takes_program_last (hs : e.Spelled 1 ws) (ho : e.Ordered) :
    Takes program ws [] fun q => ∃ e', q = [.expr e'] ∧ e'.bare = e.bare := by
  have hnone : Semicolons 0 [] := ⟨Nat.le_refl 0, fun _ h => absurd h List.not_mem_nil⟩
  obtain ⟨room, hroom⟩ := Nat.exists_eq_add_one_of_ne_zero (Nat.ne_of_gt hs.begins.pos)
  have hbody : Takes (statements (room + 1) []) ws [] fun body =>
      ∃ e', body = [.expr e'] ∧ e'.bare = e.bare := by
    refine .bind takes_remaining fun _ _ => ?_
    refine .bind (takes_skipSemicolons hnone (Nat.zero_le _) (hs.begins.ne rfl)) fun _ _ => ?_
    refine .bind (takes_check_false (hs.begins.ne rfl)) fun atEnd hend => ?_
    subst hend
    refine .bind (takes_statement_last hs ho) fun s hs => ?_
    refine (takes_statements hnone .nil trivial (Nat.zero_le room) [s]).weaken ?_
    rintro _ ⟨ss, rfl, hss⟩
    cases ss with
    | nil =>
      obtain ⟨e', rfl, he'⟩ := hs
      exact ⟨e', rfl, he'⟩
    | cons => cases hss
  refine .bind takes_remaining fun n hn => ?_
  rw [hn, hroom]
  refine .bind hbody ?_
  rintro _ ⟨e', rfl, he'⟩
  exact .pure ⟨e', rfl, he'⟩

end Parser
end Syntax

/-- The text of a plain datum is read as the expression for it. -/
theorem Store.Holds.parse_text {s : Store} {v : Value} {d : Datum} (h : s.Holds v d) :
    ∃ e, Syntax.parse d.text = .ok [.expr e] ∧ e.bare = d.expr.bare := by
  have hends : Token.Ends [] := by simp [Token.Ends]
  have hshows := Syntax.Input.shows_of_cuts (h.cuts hends)
  obtain ⟨_, j, hread, -, e, rfl, he⟩ :=
    Syntax.Parser.takes_program_last d.spelled d.ordered _ hshows
  refine ⟨e, ?_, he⟩
  rw [Syntax.parse, hread]

end Rill
