import Rill.Proofs.Exact

/-! Powers by repeated squaring and shifts of the bits, as powers and quotients of integers. -/
namespace Rill.Exact

/-! ### Powers -/

/-- A part of a product fits if the product does. -/
theorem Fits.of_mul {i k : Int} (hk : 1 ≤ k) (h : Fits (i * k)) : Fits i := by
  obtain ⟨hle, hle'⟩ := h
  constructor <;> nlinarith

/-- No integer has the square 2⁶³, so that the square of a word that does not fit is larger. -/
theorem lt_sq_of_not_fits {i : Int} (h : ¬Fits (i * i)) : 2 ^ 63 < i.natAbs * i.natAbs := by
  have hsq : (i * i).natAbs = i.natAbs * i.natAbs := Int.natAbs_mul i i
  have hnonneg : 0 ≤ i * i := mul_self_nonneg i
  have hle : 2 ^ 63 ≤ i.natAbs * i.natAbs := by
    unfold Fits at h
    omega
  have hroot : i.natAbs ≤ 3037000499 ∨ 3037000500 ≤ i.natAbs := by omega
  rcases hroot with hroot | hroot
  · have hmul := Nat.mul_le_mul hroot hroot
    omega
  · have hmul := Nat.mul_le_mul hroot hroot
    omega

/-- If a square does not fit, then no power of it does, nor a multiple of one. -/
theorem not_fits_mul_pow {acc i : Int} {k : Nat} (hacc : acc ≠ 0) (hk : k ≠ 0)
    (h : ¬Fits (i * i)) : ¬Fits (acc * (i * i) ^ k) := by
  intro hfits
  have hsize : (acc * (i * i) ^ k).natAbs = acc.natAbs * (i.natAbs * i.natAbs) ^ k := by
    rw [Int.natAbs_mul, Int.natAbs_pow, Int.natAbs_mul]
  have hlarge := lt_sq_of_not_fits h
  have hpow : i.natAbs * i.natAbs ≤ (i.natAbs * i.natAbs) ^ k := le_self_pow₀ (by omega) hk
  have hmul : (i.natAbs * i.natAbs) ^ k ≤ acc.natAbs * (i.natAbs * i.natAbs) ^ k :=
    Nat.le_mul_of_pos_left _ (Int.natAbs_pos.mpr hacc)
  obtain ⟨hle, hle'⟩ := hfits
  omega

theorem mul?_eq_none {a b : Int64} (h : ¬Fits (a.toInt * b.toInt)) : mul? a b = none :=
  ofInt?_eq_none_iff.mpr h

/-- A power as a power of the square. -/
theorem pow_eq_mul_sq_pow (i : Int) (n : Nat) :
    i ^ n = i ^ (n % 2) * (i * i) ^ (n / 2) := by
  rw [← sq, ← pow_mul, ← pow_add, Nat.mod_add_div]

/-- Squaring the base first, for a remaining exponent `k`: the square does not fit only where the
result does not. The factor `acc` is zero only if the base is. -/
theorem square_then {acc base : Int64} {k : Nat} (hk : k ≠ 0) (h : acc ≠ 0 ∨ base = 0)
    {rest : Int64 → Option Int64} (hrest : ∀ square : Int64, acc ≠ 0 ∨ square = 0 →
      rest square = ofInt? (acc.toInt * square.toInt ^ k)) :
    (mul? base base >>= rest) = ofInt? (acc.toInt * (base.toInt * base.toInt) ^ k) := by
  by_cases hfits : Fits (base.toInt * base.toInt)
  · obtain ⟨square, hsquare⟩ := exists_word hfits
    have hmul : mul? base base = some square := ofInt?_eq_some_iff.mpr hsquare
    have hne : acc ≠ 0 ∨ square = 0 := by
      refine h.imp_right fun hbase => ?_
      rw [← toInt_eq_zero_iff, hsquare, hbase]
      rfl
    rw [hmul, ← hsquare]
    exact hrest square hne
  · have hbase : base ≠ 0 := by
      rintro rfl
      exact hfits (by decide)
    have hacc : acc.toInt ≠ 0 := mt toInt_eq_zero_iff.mp (h.resolve_right hbase)
    rw [mul?_eq_none hfits, ofInt?_eq_none_iff.mpr (not_fits_mul_pow hacc hk hfits)]
    rfl

/-- Multiplying by the base first, before a power of its square. -/
theorem mul_then {acc base : Int64} {k : Nat} (h : acc ≠ 0 ∨ base = 0)
    {rest : Int64 → Option Int64} (hrest : ∀ acc' : Int64, acc' ≠ 0 ∨ base = 0 →
      rest acc' = ofInt? (acc'.toInt * (base.toInt * base.toInt) ^ k)) :
    (mul? acc base >>= rest) =
      ofInt? (acc.toInt * base.toInt * (base.toInt * base.toInt) ^ k) := by
  by_cases hfits : Fits (acc.toInt * base.toInt)
  · obtain ⟨acc', hacc'⟩ := exists_word hfits
    have hmul : mul? acc base = some acc' := ofInt?_eq_some_iff.mpr hacc'
    have hne : acc' ≠ 0 ∨ base = 0 := by
      rw [ne_eq, ← toInt_eq_zero_iff, hacc', mul_eq_zero, toInt_eq_zero_iff, toInt_eq_zero_iff]
      tauto
    rw [hmul, ← hacc']
    exact hrest acc' hne
  · have hbase : base.toInt ≠ 0 := by
      intro hzero
      rw [hzero, mul_zero] at hfits
      exact hfits (by decide)
    have hpos : 1 ≤ (base.toInt * base.toInt) ^ k := one_le_pow₀ (mul_self_pos.mpr hbase)
    rw [mul?_eq_none hfits, ofInt?_eq_none_iff.mpr (mt (Fits.of_mul hpos) hfits)]
    rfl

/-- Squaring finds the power, and leaves the range only where the power does. -/
theorem powFrom?_eq {acc base : Int64} {n : Nat} (hn : n ≠ 0) (h : acc ≠ 0 ∨ base = 0) :
    powFrom? acc base n = ofInt? (acc.toInt * base.toInt ^ n) := by
  induction n using Nat.strong_induction_on generalizing acc base with
  | _ n ih =>
    rw [powFrom?]
    by_cases hone : n ≤ 1
    · rw [if_pos hone, show n = 1 by omega, pow_one]
      rfl
    have hrest (acc' : Int64) (hacc' : acc' ≠ 0 ∨ base = 0) :
        (mul? base base >>= fun square => powFrom? acc' square (n / 2)) =
          ofInt? (acc'.toInt * (base.toInt * base.toInt) ^ (n / 2)) :=
      square_then (by omega) hacc' fun _ hne => ih (n / 2) (by omega) (by omega) hne
    rw [if_neg hone, pow_eq_mul_sq_pow]
    by_cases hodd : n % 2 = 1
    · rw [if_pos hodd, hodd, pow_one, ← mul_assoc]
      exact mul_then h hrest
    · rw [if_neg hodd, show n % 2 = 0 by omega, pow_zero, one_mul]
      exact hrest acc h

/-- Only 0, 1 and -1 have large powers that fit. -/
theorem not_fits_pow {i : Int} {n : Nat} (hi : 2 ≤ i.natAbs) (hn : 64 ≤ n) : ¬Fits (i ^ n) := by
  intro hfits
  have hpow : 2 ^ 64 ≤ (i ^ n).natAbs := by
    rw [Int.natAbs_pow]
    calc 2 ^ 64 ≤ 2 ^ n := Nat.pow_le_pow_right (by omega) hn
      _ ≤ i.natAbs ^ n := Nat.pow_le_pow_left hi n
  obtain ⟨hle, hle'⟩ := hfits
  omega

/-- A power of words is that of integers, if it fits. -/
theorem pow?_eq (a b : Int64) : pow? a b = ofInt? (a.toInt ^ b.toInt.toNat) := by
  rw [pow?]
  generalize b.toInt.toNat = n
  by_cases hsmall : n < UInt32.size
  · rw [if_pos hsmall]
    by_cases hn : n = 0
    · rw [if_pos hn, hn, pow_zero]
      rfl
    · rw [if_neg hn, powFrom?_eq hn (.inl (by decide)), Int64.toInt_one, one_mul]
  rw [if_neg hsmall]
  have hlarge : 2 ^ 32 ≤ n := Nat.not_lt.mp hsmall
  by_cases hzero : a = 0
  · rw [if_pos (.inl hzero), hzero, Int64.toInt_zero, zero_pow (by omega)]
    rfl
  by_cases hone : a = 1
  · rw [if_pos (.inr hone), hone, Int64.toInt_one, one_pow]
    rfl
  rw [if_neg (by tauto)]
  by_cases hminus : a = -1
  · rw [if_pos hminus, hminus]
    have htoInt : (-1 : Int64).toInt = -1 := by decide
    rw [htoInt]
    by_cases heven : n % 2 = 0
    · rw [if_pos heven, (Nat.even_iff.mpr heven).neg_one_pow]
      rfl
    · rw [if_neg heven, (Nat.odd_iff.mpr (by omega)).neg_one_pow]
      rfl
  · have hzero' : a.toInt ≠ 0 := mt toInt_eq_zero_iff.mp hzero
    have hone' : a.toInt ≠ 1 := fun h => hone (Int64.toInt_inj.mp h)
    have hminus' : a.toInt ≠ -1 := fun h => hminus (Int64.toInt_inj.mp h)
    rw [if_neg hminus, ofInt?_eq_none_iff.mpr (not_fits_pow (by omega) (by omega))]

/-! ### Shifts -/

theorem toInt_toBitVec_shiftLeft (x : BitVec 64) (n : Nat) :
    (x <<< n).toInt = (x.toInt * 2 ^ n).bmod (2 ^ 64) := by
  rw [BitVec.toInt_shiftLeft, BitVec.toInt_eq_toNat_bmod, Int.bmod_mul_bmod, Nat.shiftLeft_eq]
  push_cast
  rfl

/-- A count of fewer than 64 places, as bits. -/
theorem toNat_smod {b : Int64} (h : 0 ≤ b) (h' : b < 64) :
    (b.toBitVec.smod 64).toNat = b.toInt.toNat := by
  have hle : 0 ≤ b.toInt := Int64.le_iff_toInt_le.mp h
  have hlt : b.toInt < 64 := Int64.lt_iff_toInt_lt.mp h'
  have hsmod : b.toBitVec.smod 64 = b.toBitVec := by
    rw [← BitVec.toInt_inj, BitVec.toInt_smod, Int64.toInt_toBitVec]
    exact Int.fmod_eq_of_lt hle hlt
  have hbits := BitVec.toInt_eq_toNat_cond b.toBitVec
  rw [Int64.toInt_toBitVec] at hbits
  rw [hsmod]
  split at hbits <;> omega

theorem toInt_shiftLeft (a : Int64) {b : Int64} (h : 0 ≤ b) (h' : b < 64) :
    (a <<< b).toInt = (a.toInt * 2 ^ b.toInt.toNat).bmod (2 ^ 64) := by
  rw [← Int64.toInt_toBitVec, Int64.toBitVec_shiftLeft, BitVec.shiftLeft_eq',
    toInt_toBitVec_shiftLeft, toNat_smod h h', Int64.toInt_toBitVec]

theorem toInt_shiftRight (a : Int64) {b : Int64} (h : 0 ≤ b) (h' : b < 64) :
    (a >>> b).toInt = a.toInt / 2 ^ b.toInt.toNat := by
  rw [← Int64.toInt_toBitVec, Int64.toBitVec_shiftRight, BitVec.toInt_sshiftRight',
    Int.shiftRight_eq_div_pow, toNat_smod h h', Int64.toInt_toBitVec]
  push_cast
  rfl

/-- What a shift to the left makes of the integer is a multiple of 2ⁿ, so that the shift back undoes it
exactly where nothing was lost. -/
theorem shift_back_iff (a : Int64) {b : Int64} (h : 0 ≤ b) (h' : b < 64) :
    (a <<< b) >>> b = a ↔ (a <<< b).toInt = a.toInt * 2 ^ b.toInt.toNat := by
  have hlt : b.toInt < 64 := Int64.lt_iff_toInt_lt.mp h'
  have hpos : (0 : Int) < 2 ^ b.toInt.toNat := by positivity
  have hdvd : (2 : Int) ^ b.toInt.toNat ∣ (a <<< b).toInt := by
    have hpow : (2 : Int) ^ b.toInt.toNat ∣ ((2 ^ 64 : Nat) : Int) := by
      push_cast
      exact pow_dvd_pow 2 (show b.toInt.toNat ≤ 64 by omega)
    have hdiff : ((2 ^ 64 : Nat) : Int) ∣ (a <<< b).toInt - a.toInt * 2 ^ b.toInt.toNat := by
      rw [toInt_shiftLeft a h h']
      exact Int.dvd_bmod_sub_self
    have hsub := hpow.trans hdiff
    rwa [dvd_sub_left (dvd_mul_left _ _)] at hsub
  rw [← Int64.toInt_inj, toInt_shiftRight _ h h']
  constructor
  · intro hback
    rw [← hback, Int.ediv_mul_cancel hdvd]
  · intro heq
    rw [heq, Int.mul_ediv_cancel _ hpos.ne']

theorem shiftLeft?_eq (a : Int64) {b : Int64} (h : 0 ≤ b) (h' : b < 64) :
    shiftLeft? a b = ofInt? (a.toInt * 2 ^ b.toInt.toNat) := by
  rw [shiftLeft?, if_pos ⟨h, h'⟩]
  by_cases hback : (a <<< b) >>> b = a
  · rw [if_pos hback]
    exact (ofInt?_eq_some_iff.mpr ((shift_back_iff a h h').mp hback)).symm
  · have hnot : ¬Fits (a.toInt * 2 ^ b.toInt.toNat) := by
      rintro ⟨hle, hle'⟩
      apply hback
      rw [shift_back_iff a h h', toInt_shiftLeft a h h']
      exact Int.bmod_eq_of_le (by omega) (by omega)
    rw [if_neg hback, ofInt?_eq_none_iff.mpr hnot]

theorem shiftRight?_eq (a : Int64) {b : Int64} (h : 0 ≤ b) (h' : b < 64) :
    shiftRight? a b = some (a >>> b) := if_pos ⟨h, h'⟩

/-- The quotient by a power of two, rounded down. -/
theorem toInt_shiftRight_eq_floor (a : Int64) {b : Int64} (h : 0 ≤ b) (h' : b < 64) :
    (a >>> b).toInt = ⌊(a.toInt : ℚ) / 2 ^ b.toInt.toNat⌋ := by
  have hcast : (2 : ℚ) ^ b.toInt.toNat = ((2 ^ b.toInt.toNat : Nat) : ℚ) := by push_cast; rfl
  rw [toInt_shiftRight a h h', hcast, Rat.floor_intCast_div_natCast]
  push_cast
  rfl

end Rill.Exact
