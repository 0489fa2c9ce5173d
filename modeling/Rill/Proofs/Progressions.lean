import Rill.Proofs.Exact
import Rill.Session

/-! Arithmetic progressions between words: length and terms are exact, and 128 bits are always enough
on the way. -/
namespace Rill

open Text (Span)
open Eval

theorem Exact.wide?_eq {i : Int} (h : i.natAbs < 2 ^ 127) : wide? i = some i := by
  have hmin : (BitVec.intMin 128).toInt = -2 ^ 127 := by decide
  have hmax : (BitVec.intMax 128).toInt = 2 ^ 127 - 1 := by decide
  exact if_pos (by omega)

namespace Evaluator

/-- Whether a term of a progression comes before `stop`, in the direction of the step. -/
def Before (stop step term : Int) : Prop := if 0 < step then term < stop else stop < term

/-! ### Length -/

/-- Of the multiples of `stride` from the first on, as many are within `last` as the quotient without
its fraction says; of a negative quotient there are none. -/
theorem lt_quotient_iff (last : Int) {stride : Int} (h : 0 < stride) (k : Nat) :
    (k : Int) < max (last.tdiv stride) 0 ↔ (k + 1) * stride ≤ last := by
  by_cases hlast : 0 ≤ last
  · have hquotient : last.tdiv stride = last / stride := Int.tdiv_eq_ediv_of_nonneg hlast
    have hnonneg : 0 ≤ last / stride := Int.ediv_nonneg hlast h.le
    rw [← Int.le_ediv_iff_mul_le h, hquotient]
    omega
  · have hneg : (-last).tdiv stride = -last.tdiv stride := Int.neg_tdiv last stride
    have hnonneg : 0 ≤ (-last).tdiv stride := Int.tdiv_nonneg (by omega) h.le
    have hmul : stride ≤ (k + 1) * stride := by nlinarith
    omega

/-- The length of a progression between words, by the direction of its step. -/
theorem progressionLength_eq (start stop step : Int64) :
    progressionLength start.toInt stop.toInt step.toInt = some (max
      (if 0 < step.toInt then
        (stop.toInt - start.toInt + step.toInt - 1).tdiv step.toInt
      else (start.toInt - stop.toInt - step.toInt - 1).tdiv (-step.toInt)) 0) := by
  obtain ⟨hstart, hstart'⟩ := Exact.fits_toInt start
  obtain ⟨hstop, hstop'⟩ := Exact.fits_toInt stop
  obtain ⟨hstep, hstep'⟩ := Exact.fits_toInt step
  unfold progressionLength
  by_cases hpos : 0 < step.toInt
  · have hquotient := Int.natAbs_tdiv_le_natAbs
      (stop.toInt - start.toInt + step.toInt - 1) step.toInt
    rw [if_pos hpos, if_pos hpos, Exact.wide?_eq (i := stop.toInt - start.toInt) (by omega)]
    simp only [Option.bind_eq_bind, Option.bind_some]
    rw [Exact.wide?_eq (by omega), Option.bind_some, Exact.wide?_eq (by omega), Option.bind_some,
      Exact.wide?_eq (by omega)]
    rfl
  · have hquotient := Int.natAbs_tdiv_le_natAbs
      (start.toInt - stop.toInt - step.toInt - 1) (-step.toInt)
    rw [if_neg hpos, if_neg hpos, Exact.wide?_eq (i := start.toInt - stop.toInt) (by omega)]
    simp only [Option.bind_eq_bind, Option.bind_some]
    rw [Exact.wide?_eq (by omega), Option.bind_some, Exact.wide?_eq (by omega), Option.bind_some,
      Exact.wide?_eq (by omega), Option.bind_some, Exact.wide?_eq (by omega)]
    rfl

/-- The length is the number of terms before the end. -/
theorem exists_progressionLength (start stop : Int64) {step : Int64} (h : step ≠ 0) :
    ∃ n : Nat, progressionLength start.toInt stop.toInt step.toInt = some (n : Int) ∧
      ∀ k : Nat, k < n ↔ Before stop.toInt step.toInt (start.toInt + k * step.toInt) := by
  have hstep : step.toInt ≠ 0 := mt Exact.toInt_eq_zero_iff.mp h
  rw [progressionLength_eq]
  unfold Before
  by_cases hpos : 0 < step.toInt
  · refine ⟨_, congrArg some (Int.toNat_of_nonneg (Int.le_max_right _ 0)).symm, fun k => ?_⟩
    have hcount := lt_quotient_iff (stop.toInt - start.toInt + step.toInt - 1) hpos k
    rw [Int.add_mul, Int.one_mul] at hcount
    rw [if_pos hpos, if_pos hpos]
    omega
  · refine ⟨_, congrArg some (Int.toNat_of_nonneg (Int.le_max_right _ 0)).symm, fun k => ?_⟩
    have hback : 0 < -step.toInt := by omega
    have hcount := lt_quotient_iff (start.toInt - stop.toInt - step.toInt - 1) hback k
    rw [Int.add_mul, Int.one_mul, Int.mul_neg] at hcount
    rw [if_neg hpos, if_neg hpos]
    omega

/-! ### Terms -/

theorem mapM_eq_some {α β : Type} {f : α → Option β} {g : α → β} {as : List α}
    (h : ∀ a ∈ as, f a = some (g a)) : as.mapM f = some (as.map g) := by
  induction as with
  | nil => rfl
  | cons a as ih =>
    have hhead : f a = some (g a) := h a List.mem_cons_self
    have htail : as.mapM f = some (as.map g) := ih fun b hb => h b (List.mem_cons_of_mem a hb)
    rw [List.mapM_cons, hhead, htail]
    rfl

/-- No step to the terms of a progression of words that is short enough leaves 128 bits. -/
theorem progression_eq (start step : Int64) {count : Nat} (h : count ≤ 2 ^ 28) :
    progression start.toInt step.toInt count =
      some ((Array.range count).map fun (k : Nat) => Int64.ofInt (start.toInt + k * step.toInt)) := by
  obtain ⟨hstart, hstart'⟩ := Exact.fits_toInt start
  obtain ⟨hstep, hstep'⟩ := Exact.fits_toInt step
  have hterms (k : Nat) (hk : k ∈ List.range count) :
      (do
        let offset ← Exact.wide? (k * step.toInt)
        let term ← Exact.wide? (start.toInt + offset)
        return Int64.ofInt term) = some (Int64.ofInt (start.toInt + k * step.toInt)) := by
    have hcount : k < count := List.mem_range.mp hk
    have hsize : (k * step.toInt).natAbs ≤ 2 ^ 28 * 2 ^ 63 := by
      rw [Int.natAbs_mul]
      exact Nat.mul_le_mul (by omega) (by omega)
    rw [Exact.wide?_eq (by omega), Option.bind_eq_bind, Option.bind_some,
      Exact.wide?_eq (by omega)]
    rfl
  unfold progression
  rw [Array.mapM_eq_mapM_toList, Array.toList_range, mapM_eq_some hterms]
  rw [← Array.toList_range, ← Array.toList_map]
  rfl

/-- What comes before a word, from a word on, is a word. -/
theorem fits_of_before {start stop step : Int64} {k : Nat}
    (h : Before stop.toInt step.toInt (start.toInt + k * step.toInt)) :
    Exact.Fits (start.toInt + k * step.toInt) := by
  obtain ⟨hstart, hstart'⟩ := Exact.fits_toInt start
  obtain ⟨hstop, hstop'⟩ := Exact.fits_toInt stop
  unfold Before at h
  split at h
  · next hpos =>
    have hmul : 0 ≤ k * step.toInt := Int.mul_nonneg (Int.natCast_nonneg k) hpos.le
    constructor <;> omega
  · next hpos =>
    have hmul : k * step.toInt ≤ 0 := Int.mul_nonpos_of_nonneg_of_nonpos
      (Int.natCast_nonneg k) (by omega)
    constructor <;> omega

/-- For a step that is not zero, the list is made whenever it is short enough. -/
theorem rangeOf_eq {start stop step : Int64} (h : step ≠ 0) {n : Nat}
    (hn : progressionLength start.toInt stop.toInt step.toInt = some (n : Int)) (span : Span) :
    rangeOf start stop step span =
      if 2 ^ 28 < n then raise (.overflow "range") span
      else Store.newList (((Array.range n).map fun (k : Nat) =>
        Int64.ofInt (start.toInt + k * step.toInt)).map .int) := by
  unfold rangeOf
  rw [if_neg h, hn]
  dsimp only
  by_cases hlong : 2 ^ 28 < n
  · have hmost : (Arithmetic.maxLength : Int) < n := by exact_mod_cast hlong
    rw [if_pos hmost, if_pos hlong]
  · have hmost : ¬(Arithmetic.maxLength : Int) < n := by exact_mod_cast hlong
    rw [if_neg hmost, if_neg hlong, Int.toNat_natCast, progression_eq start step (by omega)]

/-! ### The built-in function -/

/-- The arguments for a progression. It starts at zero and goes up by one if they do not say
otherwise. -/
inductive RangeArguments : List Value → Int64 → Int64 → Int64 → Prop
  | one (stop : Int64) : RangeArguments [.int stop] 0 stop 1
  | two (start stop : Int64) : RangeArguments [.int start, .int stop] start stop 1
  | three (start stop step : Int64) :
    RangeArguments [.int start, .int stop, .int step] start stop step

theorem native_range (ev : Evaluator) {arguments : List Value} {start stop step : Int64}
    (h : RangeArguments arguments start stop step) (span : Span) :
    ev.native (.builtin (.global .range)) none arguments span = rangeOf start stop step span := by
  cases h <;> rfl

/-- `range` gives all terms before the end, each of them exact, if there are no more than 2²⁸ of them,
and otherwise raises an exception of class `Overflow`; a step of zero is none at all. None of its
calculations leaves 128 bits, which would be a defect. -/
theorem range_progression (ev : Evaluator) {arguments : List Value} {start stop step : Int64}
    (h : RangeArguments arguments start stop step) (span : Span) (m : Machine) :
    let run : Eval Value := ev.native (.builtin (.global .range)) none arguments span
    (step = 0 → ∃ fault : Fault, fault.type = .notImplemented ∧ run m = raise fault span m) ∧
    (step ≠ 0 → ∃ n : Nat,
      (∀ k : Nat, k < n ↔ Before stop.toInt step.toInt (start.toInt + k * step.toInt)) ∧
      (n ≤ 2 ^ 28 → ∃ terms : Array Int64, terms.size = n ∧
        (∀ k (hk : k < terms.size), terms[k].toInt = start.toInt + k * step.toInt) ∧
        run m = .ok (.list m.store.lists.size)
          { m with store := { m.store with lists := m.store.lists.push (terms.map .int) } }) ∧
      (2 ^ 28 < n → ∃ fault : Fault, fault.type = .overflow ∧ run m = raise fault span m)) ∧
    ∀ n, run m ≠ .error .defect n := by
  intro run
  have hrun : run = rangeOf start stop step span := native_range ev h span
  rw [hrun]
  by_cases hstep : step = 0
  · have hzero : rangeOf start stop step span = invalid "Range step must not be zero." span :=
      if_pos hstep
    rw [hzero]
    exact ⟨fun _ => ⟨_, rfl, rfl⟩, fun hne => absurd hstep hne, nofun⟩
  obtain ⟨n, hn, hbefore⟩ := exists_progressionLength start stop hstep
  rw [rangeOf_eq hstep hn]
  refine ⟨fun hzero => absurd hzero hstep, fun _ => ⟨n, hbefore, fun hshort => ?_, fun hlong => ?_⟩,
    ?_⟩
  · refine ⟨(Array.range n).map fun (k : Nat) => Int64.ofInt (start.toInt + k * step.toInt),
      by simp, fun k hk => ?_, ?_⟩
    · have hk' : k < n := by simpa using hk
      rw [Array.getElem_map, Array.getElem_range]
      exact Exact.toInt_ofInt (fits_of_before ((hbefore k).mp hk'))
    · rw [if_neg (by omega)]
      rfl
  · rw [if_pos hlong]
    exact ⟨_, rfl, rfl⟩
  · intro o
    split <;> nofun

/-- Down from the greatest word by the least, there are two terms. -/
theorem range_progression_down :
    let settings : Settings := ⟨9, false, fun _ => .error "no such file", #[]⟩
    let m := (Session.start settings).machine
    let arguments : List Value := [.int Int64.maxValue, .int Int64.minValue, .int Int64.minValue]
    RangeArguments arguments Int64.maxValue Int64.minValue Int64.minValue ∧
      (ofFuel settings 9).native (.builtin (.global .range)) none arguments ⟨0, 5⟩ m =
        .ok (.list m.store.lists.size) { m with store := { m.store with
          lists := m.store.lists.push #[.int Int64.maxValue, .int (-1)] } } := by
  intro settings m arguments
  have harguments : RangeArguments arguments Int64.maxValue Int64.minValue Int64.minValue :=
    .three _ _ _
  obtain ⟨-, hterms, -⟩ := range_progression (ofFuel settings 9) harguments ⟨0, 5⟩ m
  obtain ⟨n, hbefore, hshort, -⟩ := hterms (by decide)
  have hsecond : 1 < n := (hbefore 1).mpr (by unfold Before; decide)
  have hthird : ¬2 < n := mt (hbefore 2).mp (by unfold Before; decide)
  obtain ⟨terms, hsize, hexact, hrun⟩ := hshort (by omega)
  have hfirst : terms[0] = Int64.maxValue :=
    Int64.toInt_inj.mp ((hexact 0 (by omega)).trans (by decide))
  have hlast : terms[1] = -1 :=
    Int64.toInt_inj.mp ((hexact 1 (by omega)).trans (by decide))
  have hlist : terms = #[Int64.maxValue, -1] := by
    apply Array.ext (by simp; omega)
    intro i hi _
    obtain rfl | rfl : i = 0 ∨ i = 1 := by omega
    · exact hfirst
    · exact hlast
  have hvalues : (#[Int64.maxValue, -1] : Array Int64).map Value.int =
      #[.int Int64.maxValue, .int (-1)] := by simp
  refine ⟨harguments, ?_⟩
  rw [hrun, hlist, hvalues]

end Evaluator
end Rill
