import Mathlib.Algebra.Group.Nat.Defs
import Mathlib.Data.Nat.Basic
import Mathlib.Tactic.SplitIfs
import Rill.Text.Lines

/-! The position of an offset is what counting the bytes before it gives. -/
namespace Rill.Text

/-- The bytes of a text in UTF-8. -/
def bytes (text : String) : List UInt8 := text.toByteArray.data.toList

/-- The byte that ends a line. -/
def newline : UInt8 := 10

/-- The line of `offset` starts at `start`: just after the last newline before `offset`, or at zero if
there is none. -/
structure StartsLine (bs : List UInt8) (offset start : Nat) : Prop where
  le : start ≤ offset
  after : start = 0 ∨ ∃ k, start = k + 1 ∧ bs[k]? = some newline
  last : ∀ k, start ≤ k → k < offset → bs[k]? ≠ some newline

theorem StartsLine.unique {bs : List UInt8} {offset start start' : Nat}
    (h : StartsLine bs offset start) (h' : StartsLine bs offset start') : start = start' := by
  -- a later start comes just after a newline, which the earlier start rules out
  have hle {a b : Nat} (ha : StartsLine bs offset a) (hb : StartsLine bs offset b) : b ≤ a := by
    rcases hb.after with rfl | ⟨k, rfl, hk⟩
    · exact Nat.zero_le a
    · by_contra hlt
      have hbound := hb.le
      exact ha.last k (by omega) (by omega) hk
  exact Nat.le_antisymm (hle h' h) (hle h h')

/-! ### Characters as bytes -/

theorem bytes_eq (text : String) : bytes text = text.toList.flatMap String.utf8EncodeChar := by
  rw [bytes, ← String.utf8Encode_toList, List.utf8Encode, List.toList_data_toByteArray]

theorem length_bytes (text : String) : (bytes text).length = text.utf8ByteSize := rfl

theorem utf8EncodeChar_newline : String.utf8EncodeChar '\n' = [newline] := rfl

/-- The byte of the newline is in no other character. -/
theorem newline_not_mem_utf8EncodeChar {c : Char} (h : c ≠ '\n') :
    newline ∉ String.utf8EncodeChar c := by
  have hbyte {n : Nat} (hne : n % 256 ≠ 10) : newline ≠ UInt8.ofNat n := by
    intro heq
    have hnat := congrArg UInt8.toNat heq
    rw [UInt8.toNat_ofNat'] at hnat
    exact hne hnat.symm
  have hcode : c.val.toNat ≠ 10 := fun hc => h (Char.ext (UInt32.toNat_inj.mp hc))
  unfold String.utf8EncodeChar
  dsimp only
  split_ifs with h₁ h₂ h₃
  all_goals simp only [List.mem_cons, List.not_mem_nil, or_false, not_or]
  · exact hbyte (by omega)
  · exact ⟨hbyte (by omega), hbyte (by omega)⟩
  · exact ⟨hbyte (by omega), hbyte (by omega), hbyte (by omega)⟩
  · exact ⟨hbyte (by omega), hbyte (by omega), hbyte (by omega), hbyte (by omega)⟩

/-! ### Counting bytes -/

namespace Position

/-- The position just after a byte. -/
def next (p : Position) (b : UInt8) : Position :=
  if b = newline then ⟨p.line + 1, 1⟩ else ⟨p.line, p.column + 1⟩

/-- The position after some bytes. -/
def after (p : Position) (bs : List UInt8) : Position := bs.foldl next p

/-- Whether a position comes before another in a text. -/
def Before (p q : Position) : Prop := p.line < q.line ∨ p.line = q.line ∧ p.column < q.column

theorem Before.trans {p q r : Position} (h : p.Before q) (h' : q.Before r) : p.Before r := by
  unfold Before at *
  omega

theorem Before.ne {p q : Position} (h : p.Before q) : p ≠ q := by
  rintro rfl
  unfold Before at h
  omega

theorem before_next (p : Position) (b : UInt8) : p.Before (p.next b) := by
  unfold next Before
  split <;> simp

theorem after_append (p : Position) (bs cs : List UInt8) :
    p.after (bs ++ cs) = (p.after bs).after cs := List.foldl_append

theorem after_take_succ (p : Position) {bs : List UInt8} {k : Nat} (h : k < bs.length) :
    p.after (bs.take (k + 1)) = (p.after (bs.take k)).next bs[k] := by
  rw [List.take_succ_eq_append_getElem h, after_append]
  rfl

theorem line_after (p : Position) (bs : List UInt8) :
    (p.after bs).line = p.line + bs.count newline := by
  induction bs generalizing p with
  | nil => rfl
  | cons b bs ih =>
    change ((p.next b).after bs).line = _
    rw [ih, List.count_cons, next]
    by_cases hb : b = newline
    · simp only [hb, if_pos, BEq.rfl]
      omega
    · simp [hb]

/-- Where there is no newline, only the column goes on. -/
theorem after_of_not_mem (p : Position) {bs : List UInt8} (h : newline ∉ bs) :
    p.after bs = ⟨p.line, p.column + bs.length⟩ := by
  induction bs generalizing p with
  | nil => rfl
  | cons b bs ih =>
    rw [List.mem_cons, not_or] at h
    change (p.next b).after bs = _
    rw [next, if_neg (Ne.symm h.1), ih _ h.2, List.length_cons, Nat.add_right_comm]
    rfl

/-- Later offsets have later positions. -/
theorem after_take_before (p : Position) {bs : List UInt8} {j k : Nat} (hjk : j < k)
    (hk : k ≤ bs.length) : (p.after (bs.take j)).Before (p.after (bs.take k)) := by
  induction k with
  | zero => omega
  | succ k ih =>
    rw [after_take_succ p hk]
    rcases Nat.lt_succ_iff_lt_or_eq.mp hjk with hlt | rfl
    · exact (ih hlt (by omega)).trans (before_next _ _)
    · exact before_next _ _

/-- The column tells how far the line has come. -/
theorem exists_startsLine {bs : List UInt8} {offset : Nat} (h : offset ≤ bs.length) :
    ∃ start, StartsLine bs offset start ∧
      (after ⟨1, 1⟩ (bs.take offset)).column = offset - start + 1 := by
  induction offset with
  | zero => exact ⟨0, ⟨le_rfl, .inl rfl, by omega⟩, rfl⟩
  | succ offset ih =>
    obtain ⟨start, hstart, hcolumn⟩ := ih (by omega)
    have hget : bs[offset]? = some bs[offset] := List.getElem?_eq_getElem h
    rw [after_take_succ _ h, next]
    split
    · next hb =>
      refine ⟨offset + 1, ⟨le_rfl, .inr ⟨offset, rfl, by rw [hget, hb]⟩, by omega⟩, by simp⟩
    · next hb =>
      refine ⟨start, ⟨by have := hstart.le; omega, hstart.after, fun k hle hlt => ?_⟩, ?_⟩
      · rcases Nat.lt_succ_iff_lt_or_eq.mp hlt with hlt | rfl
        · exact hstart.last k hle hlt
        · rw [hget]
          simpa using hb
      · have hle := hstart.le
        simp only [hcolumn]
        omega

end Position

/-! ### Looking an offset up -/

namespace Lines

open Position

/-- The ranges found from some offset on lie between the start of the current line and one byte after
the end of the text, and follow each other. -/
theorem pairwise_rangesFrom {first offset : Nat} (h : first ≤ offset) (cs : List Char) :
    (∀ r ∈ rangesFrom first offset cs, first ≤ r.1 ∧
      r.2 ≤ offset + (cs.flatMap String.utf8EncodeChar).length + 1) ∧
    (rangesFrom first offset cs).Pairwise fun r r' => r.2 ≤ r'.1 := by
  induction cs generalizing first offset with
  | nil =>
    unfold rangesFrom
    split <;> simp
  | cons c cs ih =>
    by_cases hc : c = '\n'
    · subst hc
      obtain ⟨hbounds, hpairwise⟩ := ih (le_refl (offset + 1))
      rw [rangesFrom, List.flatMap_cons, utf8EncodeChar_newline]
      simp only [List.forall_mem_cons, List.pairwise_cons, List.cons_append, List.nil_append,
        List.length_cons]
      refine ⟨⟨⟨le_rfl, by omega⟩, fun r hr => ?_⟩, fun r hr => (hbounds r hr).1, hpairwise⟩
      obtain ⟨hlow, hhigh⟩ := hbounds r hr
      omega
    · have hsize := c.utf8Size_pos
      obtain ⟨hbounds, hpairwise⟩ := ih (Nat.le_add_right_of_le h : first ≤ offset + c.utf8Size)
      rw [rangesFrom.eq_3 _ _ _ _ hc, List.flatMap_cons, List.length_append,
        String.length_utf8EncodeChar]
      refine ⟨fun r hr => ?_, hpairwise⟩
      obtain ⟨hlow, hhigh⟩ := hbounds r hr
      omega

/-- A line has at least one byte, but for the one at the end. -/
theorem length_rangesFrom_le (first offset : Nat) (cs : List Char) :
    (rangesFrom first offset cs).length ≤ (cs.flatMap String.utf8EncodeChar).length +
      if first = offset then 0 else 1 := by
  induction cs generalizing first offset with
  | nil =>
    unfold rangesFrom
    split <;> simp
  | cons c cs ih =>
    rw [List.flatMap_cons, List.length_append, String.length_utf8EncodeChar]
    have hsize := c.utf8Size_pos
    by_cases hc : c = '\n'
    · subst hc
      have hrest := ih (offset + 1) (offset + 1)
      rw [if_pos rfl] at hrest
      rw [rangesFrom, List.length_cons]
      omega
    · have hrest := ih first (offset + c.utf8Size)
      rw [rangesFrom.eq_3 _ _ _ _ hc]
      split at hrest <;> omega

/-- An offset from the start of the current line on is where the bytes up to it lead. -/
theorem locate_rangesFrom {first offset target : Nat} (line : Nat) (cs : List Char)
    (h : first ≤ offset) (hfirst : first ≤ target)
    (hlast : target ≤ offset + (cs.flatMap String.utf8EncodeChar).length) :
    locate target line (rangesFrom first offset cs) =
      if target < offset then ⟨line, target - first + 1⟩
      else after ⟨line, offset - first + 1⟩
        ((cs.flatMap String.utf8EncodeChar).take (target - offset)) := by
  induction cs generalizing first offset line with
  | nil =>
    have hle : target ≤ offset := hlast
    unfold rangesFrom
    by_cases hempty : first = offset
    · have heq : target = offset := by omega
      rw [if_pos hempty, if_neg (by omega), heq, hempty, Nat.sub_self]
      rfl
    · rw [if_neg hempty, locate, if_pos (by omega)]
      split
      · rfl
      · have heq : target = offset := by omega
        rw [heq, Nat.sub_self]
        rfl
  | cons c cs ih =>
    rw [List.flatMap_cons, List.length_append, String.length_utf8EncodeChar] at hlast
    by_cases hc : c = '\n'
    · subst hc
      have hone : '\n'.utf8Size = 1 := rfl
      rw [rangesFrom, locate]
      by_cases hline : target < offset + 1
      · rw [if_pos ⟨hfirst, hline⟩]
        split
        · rfl
        · have heq : target = offset := by omega
          rw [heq, Nat.sub_self]
          rfl
      · rw [if_neg (by omega), if_neg (by omega),
          ih (line + 1) (Nat.le_refl (offset + 1)) (by omega) (by omega), if_neg hline,
          List.flatMap_cons, utf8EncodeChar_newline, Nat.sub_self]
        have htake : target - offset = target - (offset + 1) + 1 := by omega
        rw [htake]
        rfl
    · rw [rangesFrom.eq_3 _ _ _ _ hc, ih line (by omega) hfirst (by omega), List.flatMap_cons]
      have hnot := newline_not_mem_utf8EncodeChar hc
      have hsize := String.length_utf8EncodeChar c
      by_cases hchar : target < offset + c.utf8Size
      · rw [if_pos hchar]
        split
        · rfl
        · -- the offset is inside the character
          have hinside : newline ∉ (String.utf8EncodeChar c).take (target - offset) :=
            fun hmem => hnot (List.mem_of_mem_take hmem)
          have hcolumn : offset - first + 1 + min (target - offset) c.utf8Size =
            target - first + 1 := by omega
          rw [List.take_append_of_le_length (by omega), after_of_not_mem _ hinside,
            List.length_take, hsize]
          exact congrArg (Position.mk line) hcolumn.symm
      · have hwhole : (String.utf8EncodeChar c).take (target - offset) =
            String.utf8EncodeChar c := List.take_of_length_le (by omega)
        have hcolumn : offset - first + 1 + c.utf8Size = offset + c.utf8Size - first + 1 := by
          omega
        rw [if_neg hchar, if_neg (by omega), List.take_append, hwhole, after_append,
          after_of_not_mem _ hnot, hsize, Nat.sub_add_eq]
        exact congrArg (fun column => (Position.mk line column).after _) hcolumn.symm

/-- Whichever way a range is found that has the offset in it, the position is the one given. -/
theorem locate_of_getElem? {ranges : List (Nat × Nat)}
    (h : ranges.Pairwise fun r r' => r.2 ≤ r'.1) {i : Nat} {r : Nat × Nat}
    (hr : ranges[i]? = some r) {offset : Nat} (hfirst : r.1 ≤ offset) (hstop : offset < r.2)
    (line : Nat) : locate offset line ranges = ⟨line + i, offset - r.1 + 1⟩ := by
  induction ranges generalizing i line with
  | nil => cases hr
  | cons range ranges ih =>
    obtain ⟨hbefore, hpairwise⟩ := List.pairwise_cons.mp h
    cases i with
    | zero =>
      cases hr
      exact if_pos ⟨hfirst, hstop⟩
    | succ i =>
      have hpassed := hbefore r (List.mem_of_getElem? hr)
      rw [locate, if_neg (by omega), ih hpairwise hr, Nat.add_right_comm, Nat.add_assoc]

theorem locate_of_forall_le {ranges : List (Nat × Nat)} {offset : Nat}
    (h : ∀ r ∈ ranges, r.2 ≤ offset) (line : Nat) :
    locate offset line ranges = ⟨line + ranges.length, 1⟩ := by
  induction ranges generalizing line with
  | nil => rfl
  | cons range ranges ih =>
    obtain ⟨hpassed, hrest⟩ := List.forall_mem_cons.mp h
    rw [locate, if_neg (by omega), ih hrest, List.length_cons, Nat.add_right_comm, Nat.add_assoc]

/-! ### The lines of a text -/

variable (text : String)

/-- The ranges of the lines: where they end, how they follow each other, and how many there are. -/
theorem ranges_ofString :
    (∀ r ∈ (ofString text).ranges, r.2 ≤ text.utf8ByteSize + 1) ∧
      (ofString text).ranges.Pairwise (fun r r' => r.2 ≤ r'.1) ∧
      (ofString text).ranges.length ≤ max text.utf8ByteSize 1 := by
  have hsize := length_bytes text
  rw [bytes_eq] at hsize
  unfold ofString
  by_cases hempty : text.isEmpty
  · rw [if_pos hempty]
    exact ⟨by simp, List.pairwise_singleton _ _, Nat.le_max_right _ 1⟩
  · obtain ⟨hbounds, hpairwise⟩ := pairwise_rangesFrom (Nat.le_refl 0) text.toList
    have hlength := length_rangesFrom_le 0 0 text.toList
    rw [if_pos rfl] at hlength
    rw [if_neg hempty]
    refine ⟨fun r hr => ?_, hpairwise, by dsimp only; omega⟩
    have hstop := (hbounds r hr).2
    omega

/-- The position of an offset is where the bytes before it lead. -/
theorem position_ofString {offset : Nat} (h : offset ≤ text.utf8ByteSize) :
    (ofString text).position offset = after ⟨1, 1⟩ ((bytes text).take offset) := by
  have hsize := length_bytes text
  unfold position ofString
  by_cases hempty : text.isEmpty
  · obtain rfl : text = "" := String.isEmpty_iff.mp hempty
    obtain rfl : offset = 0 := Nat.le_zero.mp h
    rfl
  · rw [bytes_eq] at hsize ⊢
    rw [if_neg hempty]
    dsimp only
    rw [locate_rangesFrom 1 text.toList (Nat.le_refl 0) (Nat.zero_le offset) (by omega),
      if_neg (Nat.not_lt_zero offset)]
    rfl

theorem position_of_lt {offset : Nat} (h : text.utf8ByteSize < offset) :
    (ofString text).position offset = ⟨(ofString text).lastLine, 1⟩ := by
  have hpassed : ∀ r ∈ (ofString text).ranges, r.2 ≤ offset := fun r hr =>
    Nat.le_trans ((ranges_ofString text).1 r hr) h
  rw [position, locate_of_forall_le hpassed, lastLine, Nat.add_comm]

/-- Up to the end of a text, the line of an offset is one more than the newlines before it, and the
column is one more than the bytes since the last of them. So no two offsets have the same position, and
later ones have later positions. Beyond the end, there is one position for all. Numbers of 32 bits are
enough if the text is short enough for them, and the order in which lines are searched does not matter,
since no two have an offset in common. -/
theorem position_counts :
    let lines := ofString text
    let size := text.utf8ByteSize
    (∀ offset ≤ size,
      (lines.position offset).line = 1 + ((bytes text).take offset).count newline ∧
      ∃ start, (∀ start', StartsLine (bytes text) offset start' ↔ start' = start) ∧
        (lines.position offset).column = offset - start + 1) ∧
    (∀ offset ≤ size, ∀ offset' ≤ size,
      lines.position offset = lines.position offset' → offset = offset') ∧
    (∀ offset offset', offset < offset' → offset' ≤ size →
      (lines.position offset).Before (lines.position offset')) ∧
    (∀ offset, size < offset → lines.position offset = ⟨lines.lastLine, 1⟩) ∧
    (size < 2 ^ 32 - 1 → lines.lastLine < 2 ^ 32 ∧ ∀ offset,
      (lines.position offset).line < 2 ^ 32 ∧ (lines.position offset).column < 2 ^ 32) ∧
    ∀ offset i r, lines.ranges[i]? = some r → r.1 ≤ offset → offset < r.2 →
      lines.position offset = ⟨1 + i, offset - r.1 + 1⟩ := by
  intro lines size
  have hcounted (offset : Nat) (h : offset ≤ size) :
      (lines.position offset).line = 1 + ((bytes text).take offset).count newline ∧
      ∃ start, StartsLine (bytes text) offset start ∧
        (lines.position offset).column = offset - start + 1 := by
    rw [position_ofString text h, line_after]
    exact ⟨rfl, exists_startsLine h⟩
  have hbefore (offset offset' : Nat) (h : offset < offset') (h' : offset' ≤ size) :
      (lines.position offset).Before (lines.position offset') := by
    rw [position_ofString text h', position_ofString text (by omega)]
    exact after_take_before _ h h'
  obtain ⟨-, hpairwise, hlength⟩ := ranges_ofString text
  refine ⟨fun offset h => ?_, fun offset h offset' h' heq => ?_, hbefore,
    fun offset h => position_of_lt text h, fun hsize => ?_,
    fun offset i r hr hfirst hstop => locate_of_getElem? hpairwise hr hfirst hstop 1⟩
  · obtain ⟨hline, start, hstart, hcolumn⟩ := hcounted offset h
    exact ⟨hline, start, fun start' => ⟨fun h' => h'.unique hstart, fun h' => h' ▸ hstart⟩, hcolumn⟩
  · rcases Nat.lt_trichotomy offset offset' with hlt | heq | hlt
    · exact ((hbefore _ _ hlt h').ne heq).elim
    · exact heq
    · exact ((hbefore _ _ hlt h).ne heq.symm).elim
  · have hlast : lines.lastLine < 2 ^ 32 := by
      change (ofString text).ranges.length + 1 < 2 ^ 32
      omega
    refine ⟨hlast, fun offset => ?_⟩
    by_cases h : offset ≤ size
    · obtain ⟨hline, start, -, hcolumn⟩ := hcounted offset h
      have hcount : ((bytes text).take offset).count newline ≤ offset :=
        Nat.le_trans List.count_le_length (List.length_take_le _ _)
      omega
    · rw [position_of_lt text (by omega)]
      exact ⟨hlast, Nat.one_lt_two_pow (by decide)⟩

/-- After the last newline a new line begins, which is empty; beyond it there is nothing to count. -/
example :
    let lines := ofString "é\n\nb\n"
    [0, 1, 2, 3, 4, 6, 7].map lines.position =
      [⟨1, 1⟩, ⟨1, 2⟩, ⟨1, 3⟩, ⟨2, 1⟩, ⟨3, 1⟩, ⟨4, 1⟩, ⟨4, 1⟩] := by
  decide +kernel

end Lines
end Rill.Text
