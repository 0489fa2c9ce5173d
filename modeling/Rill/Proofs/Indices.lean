import Mathlib.Algebra.Group.Nat.Defs
import Mathlib.Tactic.SplitIfs
import Rill.Proofs.Outcome
import Rill.Store.Sequence

/-! Positions that indices mean, and what is at them. -/
namespace Rill.Store

/-! ### What an index means -/

/-- The position that an index means in a sequence of this length, for indices below `limit`. Those
below zero count from the end. -/
structure Means (length : Nat) (index limit : Int) (position : Nat) : Prop where
  lower : -(length : Int) ≤ index
  upper : index < limit
  position_eq : (position : Int) = if 0 ≤ index then index else index + length

namespace Means

variable {length position : Nat} {index : Int}

theorem lt (h : Means length index length position) : position < length := by
  obtain ⟨hlower, hupper, hposition⟩ := h
  split_ifs at hposition <;> omega

theorem le (h : Means length index (length + 1) position) : position ≤ length := by
  obtain ⟨hlower, hupper, hposition⟩ := h
  split_ifs at hposition <;> omega

theorem exists_of_le_of_lt {limit : Int} (hlower : -(length : Int) ≤ index) (hupper : index < limit) :
    ∃ position, Means length index limit position := by
  refine ⟨(if 0 ≤ index then index else index + length).toNat, hlower, hupper, ?_⟩
  split_ifs <;> omega

end Means

theorem resolveIndex_eq_ok_iff {index : Int64} {length position : Nat} :
    resolveIndex index length = .ok position ↔ Means length index.toInt length position := by
  unfold resolveIndex
  dsimp only
  constructor
  · intro h
    split_ifs at h <;> cases h
    all_goals exact ⟨by omega, by omega, by split <;> omega⟩
  · rintro ⟨hlower, hupper, hposition⟩
    have hresolved : (if index.toInt < 0 then index.toInt + length else index.toInt) =
        (position : Int) := by
      split_ifs at hposition ⊢ <;> omega
    rw [hresolved, if_pos (by split_ifs at hposition <;> omega), Int.toNat_natCast]

theorem resolveIndex_eq_error_iff {index : Int64} {length : Nat} {fault : Fault} :
    resolveIndex index length = .error fault ↔
      ¬(-(length : Int) ≤ index.toInt ∧ index.toInt < length) ∧
        fault = .outOfRange index.toInt length := by
  unfold resolveIndex
  dsimp only
  constructor
  · intro h
    split_ifs at h <;> cases h
    all_goals exact ⟨by omega, rfl⟩
  · rintro ⟨hout, rfl⟩
    rw [if_neg (by split_ifs <;> omega)]

theorem resolveInsertion_eq_ok_iff {index : Int64} {length position : Nat} :
    resolveInsertion index length = .ok position ↔
      Means length index.toInt (length + 1) position := by
  unfold resolveInsertion
  by_cases hend : index.toInt = length
  · rw [if_pos hend, hend]
    constructor
    · rintro ⟨⟩
      exact ⟨by omega, by omega, by simp⟩
    · rintro ⟨-, -, hposition⟩
      rw [if_pos (by omega)] at hposition
      exact congrArg _ (Int.ofNat_inj.mp hposition.symm)
  · rw [if_neg hend, resolveIndex_eq_ok_iff]
    constructor
    · rintro ⟨hlower, hupper, hposition⟩
      exact ⟨hlower, by omega, hposition⟩
    · rintro ⟨hlower, hupper, hposition⟩
      exact ⟨hlower, by omega, hposition⟩

theorem resolveInsertion_of_outside {index : Int64} {length : Nat}
    (h : ¬(-(length : Int) ≤ index.toInt ∧ index.toInt < length + 1)) :
    resolveInsertion index length = .error (.outOfRange index.toInt length) := by
  rw [resolveInsertion, if_neg (by omega)]
  exact resolveIndex_eq_error_iff.mpr ⟨by omega, rfl⟩

theorem resolveIndex_lt {index : Int64} {length position : Nat}
    (h : resolveIndex index length = .ok position) : position < length :=
  (resolveIndex_eq_ok_iff.mp h).lt

theorem resolveInsertion_le {index : Int64} {length position : Nat}
    (h : resolveInsertion index length = .ok position) : position ≤ length :=
  (resolveInsertion_eq_ok_iff.mp h).le

/-- The sum of a negative index and a length is exact. -/
theorem toInt_add_ofNat {index : Int64} {length : Nat} (hneg : index.toInt < 0)
    (hlength : length < 2 ^ 63) : (index + Int64.ofNat length).toInt = index.toInt + length := by
  have hlow := index.le_toInt
  rw [Int64.toInt_add, Int64.toInt_ofNat_of_lt hlength]
  exact Int.bmod_eq_of_le (by omega) (by omega)

/-! ### Access by index -/

section

variable {s : Store} {id : Nat}

theorem get_eq (s : Store) : (get : Attempt Store) s = .ok s s := rfl

theorem listLength_eq (s : Store) (id : Nat) : listLength id s = .ok (s.list id).size s := rfl

/-- What is done at a position goes on as its index resolves. -/
theorem at_resolved {α : Type} {resolve : Nat → Except Fault Nat} {access : Nat → Nat → Attempt α}
    {position : Nat} (h : resolve (s.list id).size = .ok position) :
    (do
      let length ← listLength id
      let position ← (resolve length : Attempt Nat)
      access length position) s = access (s.list id).size position s := by
  rw [bind_of_ok (listLength_eq s id), h]
  rfl

theorem of_not_resolved {α : Type} {resolve : Nat → Except Fault Nat}
    {access : Nat → Nat → Attempt α} {fault : Fault}
    (h : resolve (s.list id).size = .error fault) :
    (do
      let length ← listLength id
      let position ← (resolve length : Attempt Nat)
      access length position) s = .error (.fault fault) s := by
  rw [bind_of_ok (listLength_eq s id), h]
  rfl

theorem elementAt_eq {position : Nat} (h : position < (s.list id).size) :
    elementAt id position s = .ok ((s.list id)[position]) s := by
  have hget : (s.list id)[position]? = some (s.list id)[position] :=
    Array.getElem?_eq_getElem h
  rw [elementAt, bind_of_ok (get_eq s), hget]
  rfl

theorem demand_eq {condition : Prop} [Decidable condition] (h : condition) :
    demand condition s = .ok () s := by
  rw [demand, if_pos h]
  rfl

end

end Rill.Store
