import Rill.Proofs.Outcome
import Rill.Proofs.Token.LongestMatch
import Rill.Syntax.Parser

/-! The tokens of a source tile it, up to blanks and comments. -/
namespace Rill

theorem Text.utf8ByteSize_ofList (cs : List Char) :
    (String.ofList cs).utf8ByteSize = byteLength cs := by
  induction cs with
  | nil => rfl
  | cons c cs ih =>
    have hsplit : String.ofList (c :: cs) = String.singleton c ++ String.ofList cs := by
      rw [String.singleton_eq_ofList, ← String.ofList_append, List.singleton_append]
    rw [hsplit, String.utf8ByteSize_append, String.utf8ByteSize_singleton, ih, byteLength_cons]

/-- A place before which there are whole characters of a text is one between its characters. -/
theorem Text.isValid_byteLength {s : String} {cs ds : List Char} (h : s.toList = cs ++ ds) :
    String.Pos.Raw.IsValid s ⟨byteLength cs⟩ := by
  rw [String.Pos.Raw.isValid_iff_exists_append]
  refine ⟨String.ofList cs, String.ofList ds, ?_, ?_⟩
  · rw [← String.ofList_append, ← h, String.ofList_toList]
  · ext
    rw [String.byteIdx_rawEndPos, utf8ByteSize_ofList]

namespace Token

/-- The characters of any script that are white space. -/
def IsWhite (c : Char) : Prop :=
  c.toNat ∈ Set.Icc 0x9 0xd ∨ c.toNat ∈ Set.Icc 0x2000 0x200a ∨
    c.toNat ∈ [0x20, 0x85, 0xa0, 0x1680, 0x2028, 0x2029, 0x202f, 0x205f, 0x3000]

/-- Blanks and comments in front of `rest`. A comment goes from `#` up to a newline or to the end. -/
inductive Trivia (rest : List Char) : List Char → Prop
  | nil : Trivia rest []
  | blank {c cs} : IsWhite c → Trivia rest cs → Trivia rest (c :: cs)
  | comment {body cs} : '\n' ∉ body → (∀ c ∈ (cs ++ rest).head?, c = '\n') → Trivia rest cs →
      Trivia rest ('#' :: (body ++ cs))

/-- Neither a blank nor a comment comes first. -/
def Stripped (cs : List Char) : Prop := ∀ c ∈ cs.head?, ¬ IsWhite c ∧ c ≠ '#'

/-- The place of a piece, whether or not it is a token. -/
def spanOf : Piece → Text.Span
  | .ok t => t.span
  | .error e => e.span

/-- Pieces side by side with blanks and comments before, between and after them make up a text that
starts at an offset. -/
inductive Tiled : (offset : Nat) → List Char → List Piece → Prop
  | finish {offset gap} : Trivia [] gap → Tiled offset gap []
  | piece {offset gap text rest p ps} : Trivia (text ++ rest) gap → text ≠ [] →
      spanOf p = ⟨offset + Text.byteLength gap, Text.byteLength text⟩ →
      (∀ t, p = .ok t → t.text = String.ofList text) →
      Tiled (offset + Text.byteLength gap + Text.byteLength text) rest ps →
      Tiled offset (gap ++ (text ++ rest)) (p :: ps)

variable {c : Char} {cs gap rest : List Char} {offset : Nat}

/-! ### Blanks and comments -/

/-- What is passed over as blank is white space. -/
theorem isBlank_iff_isWhite : Text.isBlank c = true ↔ IsWhite c := by
  simp only [Text.isBlank, IsWhite, Set.mem_Icc, List.mem_cons, List.not_mem_nil, Bool.or_eq_true,
    Bool.and_eq_true, decide_eq_true_eq, beq_iff_eq, or_false]
  tauto

theorem takeWhile_comment {body : List Char} (hbody : '\n' ∉ body)
    (hcs : ∀ c ∈ cs.head?, c = '\n') : (body ++ cs).takeWhile (· != '\n') = body := by
  apply takeWhile_append_of_stop
  · intro d hd
    have hne : d ≠ '\n' := fun h => hbody (h ▸ hd)
    simp [hne]
  · intro c hc
    simp [hcs c hc]

/-- Blanks and comments hold no piece. -/
theorem Trivia.piecesFrom_append (h : Trivia rest gap) (offset : Nat) :
    piecesFrom offset (gap ++ rest) = piecesFrom (offset + Text.byteLength gap) rest := by
  induction h generalizing offset with
  | nil => rfl
  | @blank c cs hc _ ih =>
    rw [List.cons_append, piecesFrom.eq_def]
    dsimp only
    rw [if_pos (isBlank_iff_isWhite.mpr hc), ih, Text.byteLength_cons, Nat.add_assoc]
  | @comment body cs hbody hcs _ ih =>
    have htake := takeWhile_comment hbody hcs
    have hdrop : (body ++ (cs ++ rest)).dropWhile (· != '\n') = cs ++ rest := by
      have hsplit := List.takeWhile_append_dropWhile (p := (· != '\n')) (l := body ++ (cs ++ rest))
      rw [htake] at hsplit
      exact List.append_cancel_left hsplit
    rw [List.cons_append, List.append_assoc, piecesFrom.eq_def]
    dsimp only
    rw [if_neg (by decide), if_pos rfl, htake, hdrop, ih, Text.byteLength_cons,
      Text.byteLength_append]
    have hsize : '#'.utf8Size = 1 := rfl
    rw [hsize, Nat.add_assoc, Nat.add_assoc]

/-- Every text is blanks and comments, and then something else. -/
theorem exists_trivia (cs : List Char) :
    ∃ gap rest, cs = gap ++ rest ∧ Trivia rest gap ∧ Stripped rest := by
  fun_induction piecesFrom 0 cs with
  | case1 => exact ⟨[], [], rfl, .nil, by simp [Stripped]⟩
  | case2 offset c cs hb ih =>
    obtain ⟨gap, rest, rfl, hgap, hrest⟩ := ih
    exact ⟨c :: gap, rest, rfl, .blank (isBlank_iff_isWhite.mp hb) hgap, hrest⟩
  | case3 offset cs hb ih =>
    obtain ⟨gap, rest, hsplit, hgap, hrest⟩ := ih
    refine ⟨'#' :: (cs.takeWhile (· != '\n') ++ gap), rest, ?_, .comment ?_ ?_ hgap, hrest⟩
    · rw [List.cons_append, List.append_assoc, ← hsplit, List.takeWhile_append_dropWhile]
    · intro hmem
      simpa using List.mem_takeWhile_imp hmem
    · intro c hc
      have hhead := List.head?_dropWhile_not (· != '\n') cs
      rw [hsplit, hc] at hhead
      simpa using hhead
  | case4 offset c cs hb hc =>
    refine ⟨[], c :: cs, rfl, .nil, ?_⟩
    rintro _ ⟨⟩
    exact ⟨mt isBlank_iff_isWhite.mpr hb, hc⟩

/-! ### Pieces -/

/-- The piece that a cut makes of a text at an offset. -/
def pieceAt (offset : Nat) (outcome : Except Fault Kind) (text : List Char) : Piece :=
  match outcome with
  | .ok kind => .ok ⟨kind, String.ofList text, offset, Text.byteLength text⟩
  | .error fault => .error ⟨fault, offset, Text.byteLength text⟩

theorem spanOf_pieceAt (offset : Nat) (outcome : Except Fault Kind) (text : List Char) :
    spanOf (pieceAt offset outcome text) = ⟨offset, Text.byteLength text⟩ := by
  cases outcome <;> rfl

theorem text_of_pieceAt {outcome : Except Fault Kind} {text : List Char} {t : Token}
    (h : pieceAt offset outcome text = .ok t) : t.text = String.ofList text := by
  cases outcome with
  | ok kind =>
    cases h
    rfl
  | error fault => cases h

/-- The piece at the front is what the grammar cuts off, and the others are those of the rest. -/
theorem exists_cut (offset : Nat) (h : Stripped (c :: cs)) : ∃ outcome text rest,
    c :: cs = text ++ rest ∧ text ≠ [] ∧ Cut (text ++ rest) outcome text ∧
      piecesFrom offset (text ++ rest) =
        pieceAt offset outcome text :: piecesFrom (offset + Text.byteLength text) rest := by
  obtain ⟨hb, hc⟩ := h c rfl
  have hsplit : c :: cs =
      c :: cs.take (longestMatch c cs).more ++ cs.drop (longestMatch c cs).more := by
    rw [List.cons_append, List.take_append_drop]
  refine ⟨(longestMatch c cs).outcome, _, _, hsplit, List.cons_ne_nil _ _, ?_, ?_⟩ <;>
    rw [← hsplit]
  · exact cut_longestMatch c cs
  · rw [piecesFrom.eq_def]
    dsimp only
    rw [if_neg (mt isBlank_iff_isWhite.mp hb), if_neg hc]
    rfl

theorem tiled_piecesFrom (offset : Nat) (cs : List Char) :
    Tiled offset cs (piecesFrom offset cs) := by
  induction hn : cs.length using Nat.strongRecOn generalizing offset cs with
  | ind n ih =>
    obtain ⟨gap, rest, rfl, hgap, hrest⟩ := exists_trivia cs
    rw [hgap.piecesFrom_append]
    cases rest with
    | nil =>
      rw [piecesFrom_nil, List.append_nil]
      exact .finish hgap
    | cons c cs =>
      obtain ⟨outcome, text, rest, hsplit, hne, -, hpieces⟩ :=
        exists_cut (offset + Text.byteLength gap) hrest
      rw [hsplit] at hgap hn ⊢
      rw [hpieces]
      have hshorter : rest.length < n := by
        have hpos := List.length_pos_iff.mpr hne
        rw [List.length_append, List.length_append] at hn
        omega
      exact .piece hgap hne (spanOf_pieceAt _ _ _) (fun t => text_of_pieceAt)
        (ih _ hshorter _ rest rfl)

variable {ps : List Piece}

theorem Tiled.length_le (h : Tiled offset cs ps) : ps.length ≤ cs.length := by
  induction h with
  | finish => exact Nat.zero_le _
  | @piece _ _ text _ _ _ _ hne _ _ _ ih =>
    have hpos := List.length_pos_iff.mpr hne
    rw [List.length_cons, List.length_append, List.length_append]
    omega

/-- A piece is not empty, and it lies between characters of the source. -/
theorem Tiled.span_of_mem {source : String} {before : List Char} (h : Tiled offset cs ps)
    (hsource : source.toList = before ++ cs) (hoffset : offset = Text.byteLength before)
    {p : Piece} (hp : p ∈ ps) :
    offset ≤ (spanOf p).start ∧ 0 < (spanOf p).length ∧
      String.Pos.Raw.IsValid source ⟨(spanOf p).start⟩ ∧
      String.Pos.Raw.IsValid source ⟨(spanOf p).stop⟩ := by
  induction h generalizing before with
  | finish => cases hp
  | @piece offset gap text rest q ps _ hne hspan _ _ ih =>
    subst hoffset
    have hstart : source.toList = (before ++ gap) ++ (text ++ rest) := by
      rw [hsource, List.append_assoc]
    have hstop : source.toList = (before ++ gap ++ text) ++ rest := by
      rw [hstart, List.append_assoc (before ++ gap)]
    rcases List.mem_cons.mp hp with rfl | hp
    · have hpos : 0 < Text.byteLength text := by
        obtain ⟨c, cs, rfl⟩ := List.exists_cons_of_ne_nil hne
        have hsize := c.utf8Size_pos
        rw [Text.byteLength_cons]
        omega
      have hvalid := Text.isValid_byteLength hstart
      have hvalid' := Text.isValid_byteLength hstop
      rw [Text.byteLength_append] at hvalid hvalid'
      rw [Text.byteLength_append] at hvalid'
      rw [hspan]
      exact ⟨Nat.le_add_right _ _, hpos, hvalid, hvalid'⟩
    · obtain ⟨hle, hrest⟩ := ih hstop (by rw [Text.byteLength_append, Text.byteLength_append]) hp
      exact ⟨by omega, hrest⟩

/-- Pieces come one after another. -/
theorem Tiled.pairwise (h : Tiled offset cs ps) {source : String} {before : List Char}
    (hsource : source.toList = before ++ cs) (hoffset : offset = Text.byteLength before) :
    ps.Pairwise fun p q => (spanOf p).stop ≤ (spanOf q).start := by
  induction h generalizing before with
  | finish => exact .nil
  | @piece offset gap text rest p ps _ _ hspan _ htiled ih =>
    subst hoffset
    have hstop : source.toList = (before ++ gap ++ text) ++ rest := by
      rw [hsource, List.append_assoc, List.append_assoc]
    have hoffset : Text.byteLength before + Text.byteLength gap + Text.byteLength text =
        Text.byteLength (before ++ gap ++ text) := by
      rw [Text.byteLength_append, Text.byteLength_append]
    refine .cons (fun q hq => ?_) (ih hstop hoffset)
    rw [hspan]
    exact (htiled.span_of_mem hstop hoffset hq).1

end Token

/-! ### Calls for the next token -/

namespace Syntax.Input

open Token

/-- What is left of a source after the characters `before`. -/
def within (before rest : List Char) : Input :=
  ⟨piecesFrom (Text.byteLength before) rest, endOf (String.ofList (before ++ rest))⟩

/-- The answer that a piece is. -/
def answer : Piece → Input → EStateM.Result Error Input Token
  | .ok t, i => .ok t i
  | .error e, i => .error ⟨.lexical e, e.span⟩ i

theorem next_nil (finish : Token) : Parser.next ⟨[], finish⟩ = .ok finish ⟨[], finish⟩ := rfl

theorem next_cons (p : Piece) (ps : List Piece) (finish : Token) :
    Parser.next ⟨p :: ps, finish⟩ = answer p ⟨ps, finish⟩ := by
  cases p <;> rfl

/-- What is left after a call for the next token, whether or not there was one. -/
def afterCall (i : Input) : Input :=
  match Parser.next i with
  | .ok _ j => j
  | .error _ j => j

/-- The answer to the call for the next token that comes after `n` others. -/
def call : (n : Nat) → Input → EStateM.Result Error Input Token
  | 0, i => Parser.next i
  | n + 1, i => call n i.afterCall

theorem afterCall_cons (p : Piece) (ps : List Piece) (finish : Token) :
    afterCall ⟨p :: ps, finish⟩ = ⟨ps, finish⟩ := by
  cases p <;> rfl

theorem call_of_le {ps : List Piece} {n : Nat} (h : ps.length ≤ n) (finish : Token) :
    call n ⟨ps, finish⟩ = .ok finish ⟨[], finish⟩ := by
  induction n generalizing ps with
  | zero =>
    obtain rfl := List.length_eq_zero_iff.mp (Nat.le_zero.mp h)
    rfl
  | succ n ih =>
    cases ps with
    | nil => exact ih (Nat.zero_le n)
    | cons p ps =>
      rw [call, afterCall_cons]
      exact ih (Nat.le_of_succ_le_succ h)

theorem call_of_getElem? {ps : List Piece} {n : Nat} {p : Piece} (h : ps[n]? = some p)
    (finish : Token) : call n ⟨ps, finish⟩ = answer p ⟨ps.drop (n + 1), finish⟩ := by
  induction n generalizing ps with
  | zero =>
    cases ps with
    | nil => cases h
    | cons q ps =>
      cases h
      exact next_cons p ps finish
  | succ n ih =>
    cases ps with
    | nil => cases h
    | cons q ps =>
      rw [call, afterCall_cons]
      exact ih h

end Syntax.Input

namespace Token

open Syntax (Input)
open Syntax.Parser (next)

theorem Cut.kind_ne_eof {source text : List Char} {kind : Kind} (h : Cut source (.ok kind) text) :
    kind ≠ .eof := by
  rintro rfl
  cases h with
  | token hlongest => cases hlongest.spells

theorem kind_ne_eof_of_mem {t : Token} (h : .ok t ∈ piecesFrom offset cs) : t.kind ≠ .eof := by
  obtain ⟨c, cs, -, -, -, hmatch⟩ := legible_of_mem_piecesFrom h
  have hcut := cut_longestMatch c cs
  rw [hmatch] at hcut
  exact hcut.kind_ne_eof

/-- At every place of every source, the next token comes after the blanks and comments there. It is the
end if and only if nothing is left; otherwise it is the longest piece that the grammar of tokens finds in
what is left, or the error that the grammar makes of it. -/
theorem next_longest (before rest : List Char) :
    ∃ gap left, rest = gap ++ left ∧ Trivia left gap ∧ Stripped left ∧
      (left = [] ↔ ∃ t i, next (.within before rest) = .ok t i ∧ t.kind = .eof) ∧
      (left = [] → next (.within before rest) =
        .ok ⟨.eof, "", ⟨(String.ofList (before ++ rest)).utf8ByteSize, 0⟩⟩
          (.within before rest)) ∧
      (left ≠ [] → ∃ outcome text after, left = text ++ after ∧ Cut left outcome text ∧
        next (.within before rest) =
          Input.answer (pieceAt (Text.byteLength (before ++ gap)) outcome text)
            (.within (before ++ gap ++ text) after)) := by
  obtain ⟨gap, left, rfl, hgap, hleft⟩ := exists_trivia rest
  refine ⟨gap, left, rfl, hgap, hleft, ?_⟩
  unfold Input.within
  rw [hgap.piecesFrom_append, ← Text.byteLength_append]
  cases left with
  | nil =>
    rw [piecesFrom_nil, Input.next_nil]
    exact ⟨⟨fun _ => ⟨_, _, rfl, rfl⟩, fun _ => rfl⟩, fun _ => rfl, fun h => absurd rfl h⟩
  | cons c cs =>
    obtain ⟨outcome, text, after, hsplit, -, hcut, hpieces⟩ :=
      exists_cut (Text.byteLength (before ++ gap)) hleft
    rw [hsplit, hpieces, Input.next_cons, ← Text.byteLength_append]
    have hsource : before ++ (gap ++ (text ++ after)) = before ++ gap ++ text ++ after := by
      rw [List.append_assoc, List.append_assoc]
    rw [← hsplit]
    have hne : c :: cs ≠ [] := List.cons_ne_nil c cs
    refine ⟨⟨fun h => absurd h hne, ?_⟩, fun h => absurd h hne, fun _ =>
      ⟨outcome, text, after, hsplit, hsplit ▸ hcut, ?_⟩⟩
    · rintro ⟨t, i, hnext, hkind⟩
      cases outcome with
      | ok kind =>
        cases hnext
        exact absurd hkind hcut.kind_ne_eof
      | error fault => cases hnext
    · rw [hsplit, hsource]

/-- Calls for the next token, also after errors, give the pieces of the source one after another and
then its end for ever, and there are no more pieces than characters. No piece is empty or cuts a
character, no two overlap, and all that lies before, between and after them is blanks and comments. -/
theorem calls_tile (source : String) : ∃ ps : List Piece, ps.length ≤ source.length ∧
    (∀ n p, ps[n]? = some p →
      ∃ i, (Input.ofSource source).call n = Input.answer p i ∧ ∀ t, p = .ok t → t.kind ≠ .eof) ∧
    (∀ n, ps.length ≤ n → ∃ i, (Input.ofSource source).call n =
      .ok ⟨.eof, "", ⟨source.utf8ByteSize, 0⟩⟩ i) ∧
    (∀ p ∈ ps, 0 < (spanOf p).length ∧ String.Pos.Raw.IsValid source ⟨(spanOf p).start⟩ ∧
      String.Pos.Raw.IsValid source ⟨(spanOf p).stop⟩) ∧
    ps.Pairwise (fun p q => (spanOf p).stop ≤ (spanOf q).start) ∧
    Tiled 0 source.toList ps := by
  have htiled : Tiled 0 source.toList (pieces source) := tiled_piecesFrom 0 source.toList
  refine ⟨pieces source, ?_, ?_, ?_, ?_, ?_, htiled⟩
  · exact htiled.length_le
  · intro n p hp
    refine ⟨_, Input.call_of_getElem? hp _, ?_⟩
    rintro t rfl
    exact kind_ne_eof_of_mem (List.mem_of_getElem? hp)
  · intro n hn
    exact ⟨_, Input.call_of_le hn _⟩
  · intro p hp
    exact (htiled.span_of_mem (List.nil_append _).symm rfl hp).2
  · exact htiled.pairwise (List.nil_append _).symm rfl

end Token
end Rill
