import Mathlib.Algebra.Order.Floor.Ring
import Mathlib.Algebra.Order.Round
import Mathlib.Data.Rat.Floor
import Mathlib.Tactic.Linarith
import Mathlib.Tactic.Ring
import Rill.Exact

/-! Words against integers: operations that succeed give the exact result, and they fail only where
it does not fit. Division rounds down. -/
namespace Rill.Exact

/-- The integer is one of 64 bits. -/
def Fits (i : Int) : Prop := -2 ^ 63 ≤ i ∧ i ≤ 2 ^ 63 - 1

instance (i : Int) : Decidable (Fits i) := inferInstanceAs (Decidable (_ ∧ _))

theorem fits_toInt (a : Int64) : Fits a.toInt := by
  have hle := Int64.le_toInt a
  have hlt := Int64.toInt_lt a
  constructor <;> omega

theorem ofInt?_toInt (a : Int64) : ofInt? a.toInt = some a := by
  have hle := Int64.minValue_le_toInt a
  have hle' := Int64.toInt_le a
  rw [ofInt?, if_pos ⟨hle, hle'⟩, Int64.ofInt_toInt]

theorem toInt_ofInt {i : Int} (h : Fits i) : (Int64.ofInt i).toInt = i := by
  obtain ⟨hle, hle'⟩ := h
  exact Int64.toInt_ofInt_of_le hle (by omega)

theorem exists_word {i : Int} (h : Fits i) : ∃ w : Int64, w.toInt = i := ⟨_, toInt_ofInt h⟩

theorem ofInt?_eq_none_iff {i : Int} : ofInt? i = none ↔ ¬Fits i := by
  have hmin := Int64.toInt_minValue
  have hmax := Int64.toInt_maxValue
  unfold ofInt? Fits
  rw [hmin, hmax]
  split <;> simp_all

theorem ofInt?_eq_some_iff {i : Int} {w : Int64} : ofInt? i = some w ↔ w.toInt = i := by
  constructor
  · intro h
    have hfits : Fits i := by
      by_contra hnot
      rw [ofInt?_eq_none_iff.mpr hnot] at h
      cases h
    obtain ⟨v, rfl⟩ := exists_word hfits
    rw [ofInt?_toInt] at h
    rw [Option.some.inj h]
  · rintro rfl
    exact ofInt?_toInt w

/-! ### Division -/

/-- The integers `q` and `m` are quotient and remainder of a division that rounds down: what remains
is smaller than the divisor and has its sign. -/
structure Floored (a b q m : Int) : Prop where
  eq : q * b + m = a
  lt : m.natAbs < b.natAbs
  sign : m = 0 ∨ (m < 0 ↔ b < 0)

theorem natAbs_tmod_lt (a : Int) {b : Int} (hb : b ≠ 0) : (a.tmod b).natAbs < b.natAbs := by
  rw [Int.natAbs_tmod]
  exact Nat.mod_lt _ (Int.natAbs_pos.mpr hb)

/-- A remainder that is not zero has the sign of the dividend. -/
theorem tmod_neg_iff {a b : Int} (h : a.tmod b ≠ 0) : a.tmod b < 0 ↔ a < 0 := by
  by_cases ha : 0 ≤ a
  · have hnonneg := Int.tmod_nonneg b ha
    omega
  · have hneg := Int.neg_tmod a b
    have hnonneg := Int.tmod_nonneg (a := -a) b (by omega)
    omega

/-- Where the signs agree, the division that cuts the fraction off rounds down. -/
theorem floored_tdiv {a b : Int} (hb : b ≠ 0) (h : a.tmod b = 0 ∨ (a.tmod b < 0 ↔ b < 0)) :
    Floored a b (a.tdiv b) (a.tmod b) :=
  ⟨Int.tdiv_mul_add_tmod a b, natAbs_tmod_lt a hb, h⟩

/-- Where they do not, the quotient is one less, and the remainder is what was missing. -/
theorem floored_tdiv_sub_one {a b : Int} (hb : b ≠ 0) (hm : a.tmod b ≠ 0)
    (h : ¬(a.tmod b < 0 ↔ b < 0)) : Floored a b (a.tdiv b - 1) (a.tmod b + b) := by
  have heq := Int.tdiv_mul_add_tmod a b
  have hlt := natAbs_tmod_lt a hb
  constructor
  · rw [Int.sub_mul]
    omega
  · omega
  · right
    omega

theorem Floored.sign_eq {a b q m : Int} (hb : b ≠ 0) (h : Floored a b q m) :
    m = 0 ∨ m.sign = b.sign := by
  have hsign := h.sign
  by_cases hm : m = 0
  · exact .inl hm
  by_cases hneg : b < 0
  · rw [Int.sign_eq_neg_one_of_neg hneg, Int.sign_eq_neg_one_of_neg (by omega)]
    exact .inr rfl
  · rw [Int.sign_eq_one_of_pos (by omega), Int.sign_eq_one_of_pos (by omega)]
    exact .inr rfl

/-- The quotient is the greatest integer that is not above the fraction. -/
theorem Floored.floor_eq {a b q m : Int} (hb : b ≠ 0) (h : Floored a b q m) :
    ⌊(a : ℚ) / b⌋ = q := by
  have hb' : (b : ℚ) ≠ 0 := by exact_mod_cast hb
  have hlt := h.lt
  have hsign := h.sign
  have hsplit : (a : ℚ) / b = q + (m : ℚ) / b := by
    rw [← h.eq]
    push_cast
    field_simp
  have hrest : 0 ≤ (m : ℚ) / b ∧ (m : ℚ) / b < 1 := by
    by_cases hneg : b < 0
    · have hbneg : (b : ℚ) < 0 := by exact_mod_cast hneg
      have hm : (m : ℚ) ≤ 0 := by exact_mod_cast (by omega : m ≤ 0)
      have hm' : (b : ℚ) < m := by exact_mod_cast (by omega : b < m)
      exact ⟨div_nonneg_of_nonpos hm hbneg.le, (div_lt_one_of_neg hbneg).mpr hm'⟩
    · have hbpos : (0 : ℚ) < b := by exact_mod_cast (by omega : 0 < b)
      have hm : (0 : ℚ) ≤ m := by exact_mod_cast (by omega : 0 ≤ m)
      have hm' : (m : ℚ) < b := by exact_mod_cast (by omega : m < b)
      exact ⟨div_nonneg hm hbpos.le, (div_lt_one hbpos).mpr hm'⟩
  rw [hsplit, Int.floor_intCast_add, Int.floor_eq_zero_iff.mpr hrest, add_zero]

theorem Floored.unique {a b q q' m m' : Int} (hb : b ≠ 0) (h : Floored a b q m)
    (h' : Floored a b q' m') : q = q' ∧ m = m' := by
  have hq : q = q' := (h.floor_eq hb).symm.trans (h'.floor_eq hb)
  have heq := h.eq
  have heq' := h'.eq
  rw [hq] at heq
  exact ⟨hq, by omega⟩

theorem toInt_eq_zero_iff {a : Int64} : a.toInt = 0 ↔ a = 0 := by
  rw [← Int64.toInt_inj, Int64.toInt_zero]

theorem lt_zero_iff {a : Int64} : a < 0 ↔ a.toInt < 0 := by
  rw [Int64.lt_iff_toInt_lt, Int64.toInt_zero]

/-- A quotient is no larger than half the dividend, unless the divisor is one or minus one. -/
theorem natAbs_tdiv_le (a : Int) {b : Int} (hb : 2 ≤ b.natAbs) :
    (a.tdiv b).natAbs ≤ a.natAbs / 2 := by
  rw [Int.natAbs_tdiv]
  exact Nat.div_le_div_left hb (by omega)

/-- The only quotient that does not fit is that of the least integer and minus one. -/
theorem fits_tdiv {a b : Int64} (hb : b ≠ 0) (h : ¬(a = Int64.minValue ∧ b = -1)) :
    Fits (a.toInt.tdiv b.toInt) := by
  obtain ⟨hle, hle'⟩ := fits_toInt a
  have hb' : b.toInt ≠ 0 := mt toInt_eq_zero_iff.mp hb
  by_cases hone : b.toInt = 1
  · rw [hone, Int.tdiv_one]
    exact fits_toInt a
  by_cases hminus : b.toInt = -1
  · have hmin : a.toInt ≠ -2 ^ 63 := by
      intro heq
      exact h ⟨Int64.toInt_inj.mp (heq.trans Int64.toInt_minValue.symm), Int64.toInt_inj.mp hminus⟩
    rw [hminus, Int.tdiv_neg, Int.tdiv_one]
    constructor <;> omega
  · have hhalf := natAbs_tdiv_le a.toInt (b := b.toInt) (by omega)
    constructor <;> omega

theorem fits_tmod (a : Int64) {b : Int64} (hb : b ≠ 0) : Fits (a.toInt.tmod b.toInt) := by
  obtain ⟨hle, hle'⟩ := fits_toInt b
  have hlt := natAbs_tmod_lt a.toInt (mt toInt_eq_zero_iff.mp hb)
  constructor <;> omega

theorem div?_eq (a : Int64) {b : Int64} (hb : b ≠ 0) :
    div? a b = ofInt? (a.toInt.tdiv b.toInt) := if_neg hb

/-- Quotient and remainder without the fraction, wherever they fit. -/
theorem exists_div_rem {a b : Int64} (hb : b ≠ 0) (h : ¬(a = Int64.minValue ∧ b = -1)) :
    ∃ q m, div? a b = some q ∧ rem? a b = some m ∧ q.toInt = a.toInt.tdiv b.toInt ∧
      m.toInt = a.toInt.tmod b.toInt := by
  obtain ⟨q, hq⟩ := exists_word (fits_tdiv hb h)
  obtain ⟨m, hm⟩ := exists_word (fits_tmod a hb)
  have hdiv : div? a b = some q := by rw [div?_eq a hb, ofInt?_eq_some_iff.mpr hq]
  have hrem : rem? a b = some m := by
    rw [rem?, hdiv]
    exact ofInt?_eq_some_iff.mpr hm
  exact ⟨q, m, hdiv, hrem, hq, hm⟩

theorem relied_of_toInt {i : Int} {w : Int64} (h : w.toInt = i) : relied (ofInt? i) = .ok w := by
  rw [ofInt?_eq_some_iff.mpr h, relied]

/-- The remainder of the division that rounds down. It never leaves the range on the way. -/
theorem exists_mod (a : Int64) {b : Int64} (hb : b ≠ 0) :
    ∃ m, mod a b = .ok m ∧ ∃ q, Floored a.toInt b.toInt q m.toInt := by
  have hb' : b.toInt ≠ 0 := mt toInt_eq_zero_iff.mp hb
  by_cases h : a = Int64.minValue ∧ b = -1
  · obtain ⟨rfl, rfl⟩ := h
    exact ⟨0, by decide, 2 ^ 63, by constructor <;> decide⟩
  obtain ⟨-, r, -, hrem, -, hr⟩ := exists_div_rem hb h
  have hrem' : (rem? a b).getD 0 = r := by rw [hrem, Option.getD_some]
  have hzero : r = 0 ↔ a.toInt.tmod b.toInt = 0 := by rw [← hr, toInt_eq_zero_iff]
  have hneg : r < 0 ↔ a.toInt.tmod b.toInt < 0 := by rw [← hr, lt_zero_iff]
  rw [mod, hrem']
  by_cases hsigns : r ≠ 0 ∧ ¬(r < 0 ↔ b < 0)
  · rw [if_pos hsigns]
    rw [ne_eq, hzero, hneg, lt_zero_iff] at hsigns
    have hfloored := floored_tdiv_sub_one hb' hsigns.1 hsigns.2
    obtain ⟨hle, hle'⟩ := fits_toInt b
    have hlt := hfloored.lt
    obtain ⟨m, hm⟩ := exists_word (i := r.toInt + b.toInt) (by constructor <;> omega)
    rw [← hr, ← hm] at hfloored
    exact ⟨m, relied_of_toInt hm, _, hfloored⟩
  · rw [if_neg hsigns]
    rw [ne_eq, hzero, hneg, lt_zero_iff] at hsigns
    have hfloored := floored_tdiv (a := a.toInt) hb' (by omega)
    rw [← hr] at hfloored
    exact ⟨r, rfl, _, hfloored⟩

/-- The quotient rounded down, wherever it fits. It never leaves the range on the way. -/
theorem exists_floorDiv {a b : Int64} (hb : b ≠ 0) (h : ¬(a = Int64.minValue ∧ b = -1)) :
    ∃ q, floorDiv a b = .ok q ∧ ∃ m, Floored a.toInt b.toInt q.toInt m := by
  have hb' : b.toInt ≠ 0 := mt toInt_eq_zero_iff.mp hb
  obtain ⟨q, r, hdiv, hrem, hq, hr⟩ := exists_div_rem hb h
  have hzero : r = 0 ↔ a.toInt.tmod b.toInt = 0 := by rw [← hr, toInt_eq_zero_iff]
  have hrun : floorDiv a b =
      if r ≠ 0 ∧ ¬(a < 0 ↔ b < 0) then relied (sub? q 1) else .ok q := by
    rw [floorDiv, hdiv, hrem]
    rfl
  rw [hrun]
  by_cases hsigns : r ≠ 0 ∧ ¬(a < 0 ↔ b < 0)
  · rw [if_pos hsigns]
    rw [ne_eq, hzero, lt_zero_iff, lt_zero_iff] at hsigns
    have hfloored := floored_tdiv_sub_one hb' hsigns.1 (mt (tmod_neg_iff hsigns.1).symm.trans hsigns.2)
    -- something remains, so that the divisor is neither one nor minus one
    have hlt := natAbs_tmod_lt a.toInt hb'
    have hhalf := natAbs_tdiv_le a.toInt (b := b.toInt) (by omega)
    obtain ⟨hle, hle'⟩ := fits_toInt a
    have hfits : Fits (q.toInt - 1) := by constructor <;> omega
    obtain ⟨w, hw⟩ := exists_word hfits
    rw [← hq, ← hw] at hfloored
    exact ⟨w, relied_of_toInt hw, _, hfloored⟩
  · rw [if_neg hsigns]
    rw [ne_eq, hzero, lt_zero_iff, lt_zero_iff] at hsigns
    have hagree : a.toInt.tmod b.toInt = 0 ∨ (a.toInt.tmod b.toInt < 0 ↔ b.toInt < 0) := by
      by_cases hm : a.toInt.tmod b.toInt = 0
      · exact .inl hm
      · right
        rw [tmod_neg_iff hm]
        omega
    have hfloored := floored_tdiv hb' hagree
    rw [← hq] at hfloored
    exact ⟨q, rfl, _, hfloored⟩

theorem floorDiv_minValue : floorDiv Int64.minValue (-1) = .error .noticed := by decide

theorem mod_ne_unnoticed (a : Int64) {b : Int64} (hb : b ≠ 0) : mod a b ≠ .error .unnoticed := by
  obtain ⟨m, hm, -⟩ := exists_mod a hb
  rw [hm]
  nofun

theorem floorDiv_ne_unnoticed (a : Int64) {b : Int64} (hb : b ≠ 0) :
    floorDiv a b ≠ .error .unnoticed := by
  by_cases h : a = Int64.minValue ∧ b = -1
  · rw [h.1, h.2, floorDiv_minValue]
    nofun
  · obtain ⟨q, hq, -⟩ := exists_floorDiv hb h
    rw [hq]
    nofun

end Rill.Exact
