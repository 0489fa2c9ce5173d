import Rill.Arithmetic
import Rill.Proofs.Exact.Powers

/-! Operators on two integers: exact results, and faults where these do not fit. -/
namespace Rill.Arithmetic

open Exact (Fits)
open Store (Attempt)

/-- The attempt gives the integer if it is one of 64 bits, and otherwise the fault of leaving the
range. Either way the store stays as it is. -/
def GivesExactly (x : Attempt Value) (operator : String) (i : Int) : Prop :=
  ∀ s, (Fits i → ∃ w : Int64, w.toInt = i ∧ x s = .ok (.int w) s) ∧
    (¬Fits i → x s = .error (.fault (.overflow operator)) s)

theorem givesExactly_exact (operator : String) (i : Int) :
    GivesExactly (exact operator (Exact.ofInt? i)) operator i := by
  intro s
  constructor
  · intro h
    obtain ⟨w, hw⟩ := Exact.exists_word h
    refine ⟨w, hw, ?_⟩
    rw [Exact.ofInt?_eq_some_iff.mpr hw]
    rfl
  · intro h
    rw [Exact.ofInt?_eq_none_iff.mpr h]
    rfl

/-- For an exponent that is not negative. -/
theorem pow_eq (a : Int64) {b : Int64} (h : 0 ≤ b.toInt) : binary .pow (.int a) (.int b) =
    exact "**" (Exact.ofInt? (a.toInt ^ b.toInt.toNat)) := by
  have hneg : ¬b < 0 := by
    rw [Exact.lt_zero_iff]
    omega
  show (if b < 0 then Store.fail .divByZero else exact "**" (Exact.pow? a b)) = _
  rw [if_neg hneg, Exact.pow?_eq]

theorem pow_of_neg (a : Int64) {b : Int64} (h : b.toInt < 0) :
    binary .pow (.int a) (.int b) = Store.fail .divByZero := if_pos (Exact.lt_zero_iff.mpr h)

/-- A count of places that a word can be shifted by. -/
theorem places_iff {b : Int64} : 0 ≤ b ∧ b < 64 ↔ 0 ≤ b.toInt ∧ b.toInt < 64 := by
  rw [Int64.le_iff_toInt_le, Int64.lt_iff_toInt_lt]
  rfl

/-- Sums, differences, products, negatives, powers and shifts of integers are those of mathematics
wherever they fit, and a fault of leaving the range everywhere else. A negative power is a division
by zero, and a shift by fewer than no or more than 63 places leaves the range. -/
theorem integers_exact (a b : Int64) :
    GivesExactly (binary .add (.int a) (.int b)) "+" (a.toInt + b.toInt) ∧
    GivesExactly (binary .sub (.int a) (.int b)) "-" (a.toInt - b.toInt) ∧
    GivesExactly (binary .mul (.int a) (.int b)) "*" (a.toInt * b.toInt) ∧
    GivesExactly (unary .minus (.int a)) "-" (-a.toInt) ∧
    (0 ≤ b.toInt →
      GivesExactly (binary .pow (.int a) (.int b)) "**" (a.toInt ^ b.toInt.toNat)) ∧
    (b.toInt < 0 → ∀ s, binary .pow (.int a) (.int b) s = .error (.fault .divByZero) s) ∧
    (0 ≤ b.toInt ∧ b.toInt < 64 →
      GivesExactly (binary .shiftLeft (.int a) (.int b)) "<<" (a.toInt * 2 ^ b.toInt.toNat) ∧
      ∃ w : Int64, w.toInt = ⌊(a.toInt : ℚ) / 2 ^ b.toInt.toNat⌋ ∧
        ∀ s, binary .shiftRight (.int a) (.int b) s = .ok (.int w) s) ∧
    (¬(0 ≤ b.toInt ∧ b.toInt < 64) → ∀ s,
      binary .shiftLeft (.int a) (.int b) s = .error (.fault (.overflow "<<")) s ∧
      binary .shiftRight (.int a) (.int b) s = .error (.fault (.overflow ">>")) s) := by
  refine ⟨givesExactly_exact "+" _, givesExactly_exact "-" _, givesExactly_exact "*" _,
    givesExactly_exact "-" _, ?_, ?_, ?_, ?_⟩
  · intro h
    rw [pow_eq a h]
    exact givesExactly_exact "**" _
  · intro h s
    rw [pow_of_neg a h]
    rfl
  · intro h
    obtain ⟨hle, hlt⟩ := places_iff.mpr h
    constructor
    · show GivesExactly (exact "<<" (Exact.shiftLeft? a b)) "<<" _
      rw [Exact.shiftLeft?_eq a hle hlt]
      exact givesExactly_exact "<<" _
    · refine ⟨a >>> b, Exact.toInt_shiftRight_eq_floor a hle hlt, fun s => ?_⟩
      show exact ">>" (Exact.shiftRight? a b) s = _
      rw [Exact.shiftRight?_eq a hle hlt]
      rfl
  · intro h s
    have hplaces : ¬(0 ≤ b ∧ b < 64) := mt places_iff.mp h
    constructor
    · show exact "<<" (Exact.shiftLeft? a b) s = _
      rw [Exact.shiftLeft?, if_neg hplaces]
      rfl
    · show exact ">>" (Exact.shiftRight? a b) s = _
      rw [Exact.shiftRight?, if_neg hplaces]
      rfl

/-! ### Division -/

theorem mod_of_ok {a b m : Int64} (hb : b ≠ 0) (h : Exact.mod a b = .ok m) (s : Store) :
    binary .mod (.int a) (.int b) s = .ok (.int m) s := by
  show (if b = 0 then Store.fail .divByZero else settle "%" (Exact.mod a b)) s = _
  rw [if_neg hb, h]
  rfl

theorem floorDiv_eq (a : Int64) {b : Int64} (hb : b ≠ 0) :
    binary .floorDiv (.int a) (.int b) = settle "//" (Exact.floorDiv a b) := if_neg hb

/-- The quotient is rounded down and leaves a remainder with the sign of the divisor. The only
quotient that does not fit is that of the least integer and minus one. On the way to either, no
operation leaves the range that is not checked. Nothing is divided by zero. -/
theorem division_floors (a b : Int64) (s : Store) :
    (b ≠ 0 →
      Exact.floorDiv a b ≠ .error .unnoticed ∧ Exact.mod a b ≠ .error .unnoticed ∧
      ∃ m : Int64, binary .mod (.int a) (.int b) s = .ok (.int m) s ∧
        b.toInt ∣ a.toInt - m.toInt ∧ |m.toInt| < |b.toInt| ∧
        (m = 0 ∨ m.toInt.sign = b.toInt.sign) ∧
        (a = Int64.minValue ∧ b = -1 →
          binary .floorDiv (.int a) (.int b) s = .error (.fault (.overflow "//")) s) ∧
        (¬(a = Int64.minValue ∧ b = -1) → ∃ q : Int64,
          binary .floorDiv (.int a) (.int b) s = .ok (.int q) s ∧
          q.toInt = ⌊(a.toInt : ℚ) / b.toInt⌋ ∧ q.toInt * b.toInt + m.toInt = a.toInt)) ∧
    (b = 0 →
      binary .floorDiv (.int a) (.int b) s = .error (.fault .divByZero) s ∧
      binary .mod (.int a) (.int b) s = .error (.fault .divByZero) s ∧
      binary .div (.int a) (.int b) s = .error (.fault .divByZero) s) := by
  constructor
  · intro hb
    refine ⟨Exact.floorDiv_ne_unnoticed a hb, Exact.mod_ne_unnoticed a hb, ?_⟩
    obtain ⟨m, hm, q', hfloored⟩ := Exact.exists_mod a hb
    have hb' : b.toInt ≠ 0 := mt Exact.toInt_eq_zero_iff.mp hb
    refine ⟨m, mod_of_ok hb hm s, ⟨q', ?_⟩, ?_, ?_, ?_, ?_⟩
    · rw [← hfloored.eq]
      ring
    · rw [Int.abs_eq_natAbs, Int.abs_eq_natAbs]
      exact_mod_cast hfloored.lt
    · rw [← Exact.toInt_eq_zero_iff]
      exact hfloored.sign_eq hb'
    · rintro ⟨rfl, rfl⟩
      rw [floorDiv_eq _ hb, Exact.floorDiv_minValue]
      rfl
    · intro h
      obtain ⟨q, hq, m', hfloored'⟩ := Exact.exists_floorDiv hb h
      obtain ⟨hqq, hmm⟩ := hfloored.unique hb' hfloored'
      refine ⟨q, ?_, (hfloored'.floor_eq hb').symm, ?_⟩
      · rw [floorDiv_eq a hb, hq]
        rfl
      · rw [← hqq]
        exact hfloored.eq
  · rintro rfl
    have hzero : (Binary64.ofInt64 0).isZero = true := by decide
    refine ⟨rfl, rfl, ?_⟩
    show divideBy Binary64.div (Binary64.ofInt64 a) (Binary64.ofInt64 0) s = _
    rw [divideBy, if_pos hzero]
    rfl

end Rill.Arithmetic
