import Rill.Proofs.Exact
import Rill.Proofs.Indices
import Rill.Proofs.Regime

/-! Attempts on a store access nothing out of bounds. -/
namespace Rill

namespace Store

/-- Before an access, the index is resolved against the length at that time. -/
theorem safe_resolved {α : Type} {id : Nat} {resolve : Nat → Except Fault Nat}
    {access : Nat → Nat → Attempt α}
    (h : ∀ s position, s.Checked → resolve (s.list id).size = .ok position →
      match access (s.list id).size position s with
      | .ok _ t => s.Within ∅ t
      | .error trouble t => s.Within ∅ t ∧ trouble ≠ .defect) :
    Safe (do
      let length ← listLength id
      let position ← (resolve length : Attempt Nat)
      access length position) := by
  intro s hs
  cases hr : resolve (s.list id).size with
  | error fault =>
    rw [of_not_resolved hr]
    exact ⟨.refl s, nofun⟩
  | ok position =>
    rw [at_resolved hr]
    exact h s position hs hr

theorem safe_listGet (id : Nat) (index : Int64) : Safe (listGet id index) :=
  safe_resolved fun s position _ hr => by
    rw [elementAt_eq (resolveIndex_lt hr)]
    exact .refl s

theorem safe_demand {condition : Prop} [Decidable condition] (h : condition) :
    Safe (demand condition) := by
  unfold demand
  rw [if_pos h]
  exact .pure ()

theorem safe_listSet (id : Nat) (index : Int64) (v : Value) : Safe (listSet id index v) :=
  safe_resolved fun s _ hs hr =>
    Safe.bind (safe_demand (resolveIndex_lt hr)) (fun _ => .action (keeps_modifyList id _)) s hs

theorem safe_listPush (id : Nat) (v : Value) : Safe (listPush id v) :=
  .action (keeps_modifyList id _)

theorem safe_listInsert (id : Nat) (index : Int64) (v : Value) : Safe (listInsert id index v) :=
  safe_resolved fun s _ hs hr =>
    Safe.bind (safe_demand (resolveInsertion_le hr)) (fun _ => .action (keeps_modifyList id _)) s hs

theorem safe_listRemove (id : Nat) (index : Int64) : Safe (listRemove id index) :=
  safe_resolved fun s position _ hr => by
    rw [bind_of_ok (elementAt_eq (resolveIndex_lt hr))]
    exact .step (.editList id _) rfl rfl

theorem safe_listPop (id : Nat) : Safe (listPop id) := by
  refine .bind .get fun s => ?_
  split
  · exact .fail _
  · exact .bind (.action (keeps_modifyList id _)) fun _ => .pure _

theorem safe_key (v : Value) : Safe (key v) := by
  unfold key
  split
  · exact .pure _
  · exact .bind .get fun _ => .fail _

theorem safe_dictGet? (id : Nat) (index : Value) : Safe (dictGet? id index) :=
  .bind (safe_key index) fun _ => .bind .get fun _ => .pure _

theorem safe_dictGet (id : Nat) (index : Value) : Safe (dictGet id index) := by
  refine .bind (safe_dictGet? id index) fun v => ?_
  split
  · exact .pure _
  · exact .bind .get fun _ => .fail _

theorem safe_dictSet (id : Nat) (index v : Value) : Safe (dictSet id index v) :=
  .bind_of (safe_key index) fun _ _ _ hk =>
    .action (keeps_modifyDict id fun _ h => h.put (key_proper hk) v)

theorem safe_dictRemove (id : Nat) (index : Value) : Safe (dictRemove id index) := by
  refine .bind (safe_key index) fun _ => .bind .get fun _ => ?_
  split
  · exact .bind .get fun _ => .fail _
  · exact .bind (.action (keeps_modifyDict id fun _ h => h.erase _)) fun _ => .pure _

theorem safe_dictContains (id : Nat) (index : Value) : Safe (dictContains id index) :=
  .bind (safe_key index) fun _ => .bind .get fun _ => .pure _

theorem keeps_dictKeys {homes : Set Nat} (id : Nat) : Keeps homes (dictKeys id) fun _ => True :=
  .bind .get fun _ _ => .pure trivial

theorem keeps_dictValues {homes : Set Nat} (id : Nat) : Keeps homes (dictValues id) fun _ => True :=
  .bind .get fun _ _ => .pure trivial

end Store

namespace Arithmetic

open Store

theorem safe_unsupported {α : Type} (op : BinaryOp) (lhs rhs : Value) :
    Safe (α := α) (unsupported op lhs rhs) :=
  .bind .get fun _ => .fail _

theorem safe_exact (operator : String) (i : Option Int64) : Safe (exact operator i) := by
  cases i with
  | none => exact .fail _
  | some i => exact .pure _

/-- Arithmetic in steps is safe if no step leaves the range unnoticed. -/
theorem safe_settle {operator : String} {x : Except Exact.Excess Int64}
    (h : x ≠ .error .unnoticed) : Safe (settle operator x) := by
  cases x with
  | ok i => exact .pure _
  | error excess =>
    cases excess with
    | noticed => exact .fail _
    | unnoticed => exact absurd rfl h

theorem safe_onFloats {op : BinaryOp} {f : Binary64 → Binary64 → Attempt Value}
    (h : ∀ x y, Safe (f x y)) (lhs rhs : Value) : Safe (onFloats op f lhs rhs) := by
  unfold onFloats
  split
  · exact h _ _
  · exact safe_unsupported op lhs rhs

theorem safe_divideBy (f : Binary64 → Binary64 → Binary64) (x y : Binary64) :
    Safe (divideBy f x y) := by
  unfold divideBy
  split
  · exact .fail _
  · exact .pure _

theorem safe_repetitions (length : Nat) (count : Int64) : Safe (repetitions length count) := by
  unfold repetitions
  dsimp only
  split
  · exact .pure _
  split
  · exact .pure _
  · exact .fail _

theorem safe_repeatString (s : String) (count : Int64) : Safe (repeatString s count) :=
  .bind (safe_repetitions _ count) fun _ => .pure _

theorem safe_repeatList (id : Nat) (count : Int64) : Safe (repeatList id count) :=
  .bind .get fun _ => .bind (safe_repetitions _ count) fun _ => .action (keeps_newList _)

theorem safe_bitwise (op : BinaryOp) (ints : Int64 → Int64 → Int64) (bools : Bool → Bool → Bool)
    (lhs rhs : Value) : Safe (bitwise op ints bools lhs rhs) := by
  unfold bitwise
  split
  · exact .pure _
  · exact .pure _
  · exact safe_unsupported op _ _

theorem safe_shift (op : BinaryOp) (f : Int64 → Int64 → Option Int64) (lhs rhs : Value) :
    Safe (shift op f lhs rhs) := by
  unfold shift
  split
  · exact safe_exact _ _
  · exact safe_unsupported op _ _

theorem safe_compareBy (op : BinaryOp) (holds : Ordering → Bool) (lhs rhs : Value) :
    Safe (compareBy op holds lhs rhs) := by
  unfold compareBy
  split
  · exact .pure _
  · exact safe_unsupported op lhs rhs

theorem safe_add (lhs rhs : Value) : Safe (add lhs rhs) := by
  unfold add
  split
  · exact safe_exact _ _
  · exact .pure _
  · exact .bind .get fun _ => .action (keeps_newList _)
  · exact safe_onFloats (fun _ _ => .pure _) _ _

theorem safe_mul (lhs rhs : Value) : Safe (mul lhs rhs) := by
  unfold mul
  split
  · exact safe_exact _ _
  · exact safe_repeatString _ _
  · exact safe_repeatString _ _
  · exact safe_repeatList _ _
  · exact safe_repeatList _ _
  · exact safe_onFloats (fun _ _ => .pure _) _ _

/-- An operation with a case of its own for two integers, and one for floats. -/
theorem safe_ofNumbers {op : BinaryOp} {ints : Int64 → Int64 → Attempt Value}
    {floats : Binary64 → Binary64 → Attempt Value} (hi : ∀ i j, Safe (ints i j))
    (hf : ∀ x y, Safe (floats x y)) (lhs rhs : Value) :
    Safe (match lhs, rhs with
      | .int i, .int j => ints i j
      | _, _ => onFloats op floats lhs rhs) := by
  split
  · exact hi _ _
  · exact safe_onFloats hf _ _

theorem safe_unlessZero {j : Int64} {x : Attempt Value} (h : j ≠ 0 → Safe x) :
    Safe (if j = 0 then fail .divByZero else x) := by
  split
  · exact .fail _
  · next hj => exact h hj

theorem safe_binary (op : BinaryOp) (lhs rhs : Value) : Safe (binary op lhs rhs) := by
  cases op with
  | add => exact safe_add lhs rhs
  | mul => exact safe_mul lhs rhs
  | sub => exact safe_ofNumbers (fun _ _ => safe_exact _ _) (fun _ _ => .pure _) lhs rhs
  | div => exact safe_ofNumbers (fun _ _ => safe_divideBy _ _ _) (safe_divideBy _) lhs rhs
  | floorDiv =>
    refine safe_ofNumbers (fun i j => safe_unlessZero fun hj => ?_) (safe_divideBy _) lhs rhs
    exact safe_settle (Exact.floorDiv_ne_unnoticed i hj)
  | mod =>
    refine safe_ofNumbers (fun i j => safe_unlessZero fun hj => ?_) (safe_divideBy _) lhs rhs
    exact safe_settle (Exact.mod_ne_unnoticed i hj)
  | pow =>
    refine safe_ofNumbers (fun i j => ?_) (fun _ _ => .pure _) lhs rhs
    split
    · exact .fail _
    · exact safe_exact _ _
  | bitAnd | bitOr | bitXor => exact safe_bitwise _ _ _ lhs rhs
  | shiftLeft | shiftRight => exact safe_shift _ _ lhs rhs
  | lt | le | gt | ge => exact safe_compareBy _ _ lhs rhs
  | eq | ne => exact .pure _

theorem safe_unary (op : UnaryOp) (operand : Value) : Safe (unary op operand) := by
  unfold unary
  split
  · exact .bind .get fun _ => .pure _
  · exact .pure _
  · exact .pure _
  · exact safe_exact _ _
  · exact .pure _
  · exact .pure _
  · exact .bind .get fun _ => .fail _

end Arithmetic

namespace HostValue

open Store

theorem proper_toTable {table table' : Table Key Value} {s t : Store}
    (hs : List (HostValue × HostValue)) (htable : table.Proper)
    (h : toTable table hs s = .ok table' t) : table'.Proper := by
  induction hs generalizing table s with
  | nil =>
    cases h
    exact htable
  | cons e hs ih =>
    obtain ⟨v, _, -, h⟩ := of_bind_eq_ok h
    obtain ⟨k, _, hk, h⟩ := of_bind_eq_ok h
    obtain ⟨w, _, -, h⟩ := of_bind_eq_ok h
    exact ih (htable.put (key_proper hk) w) h

mutual

theorem safe_toValue : (h : HostValue) → Safe h.toValue
  | .none | .bool _ | .int _ | .float _ | .string _ | .opaqueValue _ => .pure _
  | .sequence elements => .bind (safe_toValues elements) fun _ => .action (keeps_newList _)
  | .mapping entries =>
    .bind_of (safe_toTable Table.empty entries) fun _ _ _ htable =>
      .action (keeps_newDict (proper_toTable entries .empty htable))

theorem safe_toValues : (hs : List HostValue) → Safe (toValues hs)
  | [] => .pure _
  | h :: hs => .bind (safe_toValue h) fun _ => .bind (safe_toValues hs) fun _ => .pure _

theorem safe_toTable (table : Table Key Value) :
    (hs : List (HostValue × HostValue)) → Safe (toTable table hs)
  | [] => .pure _
  | (k, h) :: hs =>
    .bind (safe_toValue k) fun v => .bind (safe_key v) fun _ =>
      .bind (safe_toValue h) fun _ => safe_toTable _ hs

end

end HostValue
end Rill
