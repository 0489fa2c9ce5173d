import Rill.Proofs.Veil.Rules

/-! Attempts on a store keep to a veil: they find known values and put known values there. -/
namespace Rill

variable {V : Veil} {s : Store}

namespace Veil

open Store

/-! ### Lists and dicts -/

theorem tries_listLength (id : Nat) : V.Tries s Any (listLength id) :=
  .bind .get fun _ _ _ _ _ => .done _

theorem tries_elementAt (id position : Nat) :
    V.Tries s (Value.Known V) (elementAt id position) := by
  refine .bind .get fun t u _ ht hu => ?_
  split
  · next v hv => exact .value (ht.list v (hu ▸ Array.mem_of_getElem? hv))
  · exact .throw _

theorem tries_listGet (id : Nat) (index : Int64) : V.Tries s (Value.Known V) (listGet id index) :=
  .bind (tries_listLength id) fun _ _ _ _ _ => .bind (.ofExcept _) fun _ _ _ _ _ =>
    tries_elementAt id _

theorem tries_listSet {id : Nat} {v : Value} (hid : id ∉ V.lists) (hv : v.Known V s)
    (index : Int64) : V.Tries s Any (listSet id index v) := by
  refine .bind (tries_listLength id) fun t _ hst _ _ => .bind (.ofExcept _) fun u _ htu _ _ =>
    .bind (.demand _) fun w _ huw _ _ => .action (acts_modifyList hid ?_)
  intro x hwx elements he y hy
  rcases Array.mem_or_eq_of_mem_setIfInBounds hy with hy | rfl
  · exact he y hy
  · exact hv.mono (hst.trans (htu.trans (huw.trans hwx)))

theorem tries_listPush {id : Nat} {v : Value} (hid : id ∉ V.lists) (hv : v.Known V s) :
    V.Tries s Any (listPush id v) :=
  .action (acts_modifyList hid fun _ hst _ he => Array.forall_mem_push.mpr ⟨hv.mono hst, he⟩)

theorem tries_listInsert {id : Nat} {v : Value} (hid : id ∉ V.lists) (hv : v.Known V s)
    (index : Int64) : V.Tries s Any (listInsert id index v) := by
  refine .bind (tries_listLength id) fun t _ hst _ _ => .bind (.ofExcept _) fun u _ htu _ _ =>
    .bind (.demand _) fun w _ huw _ _ => .action (acts_modifyList hid ?_)
  intro x hwx elements he y hy
  unfold Array.insertIdxIfInBounds at hy
  split at hy
  · rcases Array.mem_insertIdx.mp hy with rfl | hy
    · exact hv.mono (hst.trans (htu.trans (huw.trans hwx)))
    · exact he y hy
  · exact he y hy

theorem tries_listRemove {id : Nat} (hid : id ∉ V.lists) (index : Int64) :
    V.Tries s (Value.Known V) (listRemove id index) := by
  refine .bind (tries_listLength id) fun _ _ _ _ _ => .bind (.ofExcept _) fun _ _ _ _ _ =>
    .bind (tries_elementAt id _) fun _ v _ _ hv => ?_
  refine .bind (.action (acts_modifyList hid ?_)) fun _ _ hst _ _ => .value (hv.mono hst)
  intro _ _ elements he y hy
  unfold Array.eraseIdxIfInBounds at hy
  split at hy
  · exact he y (Array.mem_of_mem_eraseIdx hy)
  · exact he y hy

theorem tries_listPop {id : Nat} (hid : id ∉ V.lists) :
    V.Tries s (Value.Known V) (listPop id) := by
  refine .bind .get fun t u _ ht hu => ?_
  split
  · exact .fail _
  · next v hv =>
    have hknown : v.Known V t := ht.list v (hu ▸ Array.mem_of_back? hv)
    refine .bind (.action (acts_modifyList hid ?_)) fun _ _ hst _ _ => .value (hknown.mono hst)
    intro _ _ elements he y hy
    obtain ⟨i, hi, rfl⟩ := Array.mem_iff_getElem.mp hy
    rw [Array.getElem_pop]
    exact he _ (Array.getElem_mem _)

theorem tries_key (v : Value) : V.Tries s Any (key v) := by
  unfold key
  split
  · exact .done _
  · exact .bind .get fun _ _ _ _ _ => .fail _

theorem tries_dictGet? (id : Nat) (index : Value) :
    V.Tries s (fun t found => ∀ v, found = some v → v.Known V t) (dictGet? id index) := by
  refine .bind (tries_key index) fun _ _ _ _ _ => .bind .get fun t u _ ht hu => ?_
  subst hu
  exact .pure fun _ hst v hv => ((ht.dict id).get? hv).mono hst

theorem tries_dictGet (id : Nat) (index : Value) :
    V.Tries s (Value.Known V) (dictGet id index) := by
  refine .bind (tries_dictGet? id index) fun t found _ _ hfound => ?_
  split
  · next v => exact .value (hfound v rfl)
  · exact .bind .get fun _ _ _ _ _ => .fail _

theorem tries_dictSet {v : Value} (hv : v.Known V s) (id : Nat) (index : Value) :
    V.Tries s Any (dictSet id index v) :=
  .bind (tries_key index) fun _ _ hst _ _ =>
    .action (acts_modifyDict fun _ htu _ he => he.put (hv.mono (hst.trans htu)))

theorem tries_dictRemove (id : Nat) (index : Value) :
    V.Tries s (Value.Known V) (dictRemove id index) := by
  refine .bind (tries_key index) fun _ key _ _ _ => .bind .get fun t u _ ht hu => ?_
  split
  · exact .bind .get fun _ _ _ _ _ => .fail _
  · next v hv =>
    have hknown : v.Known V t := (ht.dict id).get? (hu ▸ hv)
    exact .bind (.action (acts_modifyDict fun _ _ _ he => he.erase key)) fun _ _ hst _ _ =>
      .value (hknown.mono hst)

theorem tries_dictContains (id : Nat) (index : Value) : V.Tries s Any (dictContains id index) :=
  .bind (tries_key index) fun _ _ _ _ _ => .bind .get fun _ _ _ _ _ => .done _

theorem acts_dictKeys (id : Nat) :
    V.Acts s (fun t keys => ∀ v ∈ keys, v.Known V t) (dictKeys id) := by
  refine .bind .get fun _ _ _ _ _ => .pure fun t _ v hv => ?_
  obtain ⟨e, -, rfl⟩ := Array.mem_map.mp hv
  exact Value.Known.ofKey t e.1

theorem acts_dictValues (id : Nat) :
    V.Acts s (fun t values => ∀ v ∈ values, v.Known V t) (dictValues id) := by
  refine .bind .get fun t u _ ht hu => .pure fun _ hst v hv => ?_
  obtain ⟨e, he, rfl⟩ := Array.mem_map.mp hv
  exact (ht.dict id e (hu ▸ he)).mono hst

/-! ### Operators -/

open Arithmetic

theorem tries_unsupported {α : Type} {Q : Store → α → Prop} (op : BinaryOp) (lhs rhs : Value) :
    V.Tries s Q (unsupported op lhs rhs) :=
  .bind .get fun _ _ _ _ _ => .fail _

theorem tries_float (x : Binary64) : V.Tries s (Value.Known V) (return .float x) := .value trivial

theorem tries_exact (operator : String) (i : Option Int64) :
    V.Tries s (Value.Known V) (exact operator i) := by
  cases i with
  | none => exact .fail _
  | some i => exact .value trivial

theorem tries_settle (operator : String) (x : Except Exact.Excess Int64) :
    V.Tries s (Value.Known V) (settle operator x) := by
  cases x with
  | ok i => exact .value trivial
  | error excess =>
    cases excess with
    | noticed => exact .fail _
    | unnoticed => exact .throw _

theorem tries_onFloats {op : BinaryOp} {f : Binary64 → Binary64 → Attempt Value}
    (h : ∀ x y, V.Tries s (Value.Known V) (f x y)) (lhs rhs : Value) :
    V.Tries s (Value.Known V) (onFloats op f lhs rhs) := by
  unfold onFloats
  split
  · exact h _ _
  · exact tries_unsupported op lhs rhs

theorem tries_divideBy (f : Binary64 → Binary64 → Binary64) (x y : Binary64) :
    V.Tries s (Value.Known V) (divideBy f x y) := by
  unfold divideBy
  split
  · exact .fail _
  · exact .value trivial

theorem tries_repetitions (length : Nat) (count : Int64) :
    V.Tries s Any (repetitions length count) := by
  unfold repetitions
  dsimp only
  split
  · exact .done _
  split
  · exact .done _
  · exact .fail _

theorem tries_repeatString (text : String) (count : Int64) :
    V.Tries s (Value.Known V) (repeatString text count) :=
  .bind (tries_repetitions _ count) fun _ _ _ _ _ => .value trivial

theorem mem_repeatArray {xs : Array Value} {n : Nat} {acc : Array Value} {v : Value}
    (h : v ∈ repeatArray xs n acc) : v ∈ xs ∨ v ∈ acc := by
  induction n generalizing acc with
  | zero => exact .inr h
  | succ n ih =>
    rcases ih h with h | h
    · exact .inl h
    · exact (Array.mem_append.mp h).symm

theorem tries_repeatList (id : Nat) (count : Int64) :
    V.Tries s (Value.Known V) (repeatList id count) := by
  refine .bind .get fun t u _ ht hu => .bind (tries_repetitions _ count) fun _ _ htw _ _ =>
    .action (acts_newList fun v hv => ?_)
  rcases mem_repeatArray hv with hv | hv
  · exact (ht.list v (hu ▸ hv)).mono htw
  · simp at hv

theorem tries_bitwise (op : BinaryOp) (ints : Int64 → Int64 → Int64) (bools : Bool → Bool → Bool)
    (lhs rhs : Value) : V.Tries s (Value.Known V) (bitwise op ints bools lhs rhs) := by
  unfold bitwise
  split
  · exact .value trivial
  · exact .value trivial
  · exact tries_unsupported op _ _

theorem tries_shift (op : BinaryOp) (f : Int64 → Int64 → Option Int64) (lhs rhs : Value) :
    V.Tries s (Value.Known V) (shift op f lhs rhs) := by
  unfold shift
  split
  · exact tries_exact _ _
  · exact tries_unsupported op _ _

theorem tries_compareBy (op : BinaryOp) (holds : Ordering → Bool) (lhs rhs : Value) :
    V.Tries s (Value.Known V) (compareBy op holds lhs rhs) := by
  unfold compareBy
  split
  · exact .value trivial
  · exact tries_unsupported op lhs rhs

theorem tries_add (lhs rhs : Value) : V.Tries s (Value.Known V) (add lhs rhs) := by
  unfold add
  split
  · exact tries_exact _ _
  · exact .value trivial
  · refine .bind .get fun t u _ ht hu => .action (acts_newList fun v hv => ?_)
    subst hu
    rcases Array.mem_append.mp hv with hv | hv
    · exact ht.list v hv
    · exact ht.list v hv
  · exact tries_onFloats (fun _ _ => tries_float _) _ _

theorem tries_mul (lhs rhs : Value) : V.Tries s (Value.Known V) (mul lhs rhs) := by
  unfold mul
  split
  · exact tries_exact _ _
  · exact tries_repeatString _ _
  · exact tries_repeatString _ _
  · exact tries_repeatList _ _
  · exact tries_repeatList _ _
  · exact tries_onFloats (fun _ _ => tries_float _) _ _

/-- An operation with a case of its own for two integers, and one for floats. -/
theorem tries_ofNumbers {op : BinaryOp} {ints : Int64 → Int64 → Attempt Value}
    {floats : Binary64 → Binary64 → Attempt Value}
    (hi : ∀ i j, V.Tries s (Value.Known V) (ints i j))
    (hf : ∀ x y, V.Tries s (Value.Known V) (floats x y)) (lhs rhs : Value) :
    V.Tries s (Value.Known V) (match lhs, rhs with
      | .int i, .int j => ints i j
      | _, _ => onFloats op floats lhs rhs) := by
  split
  · exact hi _ _
  · exact tries_onFloats hf _ _

theorem tries_unless {condition : Prop} [Decidable condition] (fault : Fault) {x : Attempt Value}
    (h : V.Tries s (Value.Known V) x) :
    V.Tries s (Value.Known V) (if condition then fail fault else x) := by
  split
  · exact .fail _
  · exact h

theorem tries_binary (op : BinaryOp) (lhs rhs : Value) :
    V.Tries s (Value.Known V) (binary op lhs rhs) := by
  cases op with
  | add => exact tries_add lhs rhs
  | mul => exact tries_mul lhs rhs
  | sub => exact tries_ofNumbers (fun _ _ => tries_exact _ _) (fun _ _ => tries_float _) lhs rhs
  | div => exact tries_ofNumbers (fun _ _ => tries_divideBy _ _ _) (tries_divideBy _) lhs rhs
  | floorDiv =>
    exact tries_ofNumbers (fun _ _ => tries_unless _ (tries_settle _ _)) (tries_divideBy _) lhs rhs
  | mod =>
    exact tries_ofNumbers (fun _ _ => tries_unless _ (tries_settle _ _)) (tries_divideBy _) lhs rhs
  | pow =>
    exact tries_ofNumbers (fun _ _ => tries_unless _ (tries_exact _ _)) (fun _ _ => tries_float _)
      lhs rhs
  | bitAnd | bitOr | bitXor => exact tries_bitwise _ _ _ lhs rhs
  | shiftLeft | shiftRight => exact tries_shift _ _ lhs rhs
  | lt | le | gt | ge => exact tries_compareBy _ _ lhs rhs
  | eq | ne => exact .value trivial

theorem tries_unary {operand : Value} (h : operand.Known V s) (op : UnaryOp) :
    V.Tries s (Value.Known V) (unary op operand) := by
  unfold unary
  split
  · exact .bind .get fun _ _ _ _ _ => .value trivial
  · exact .value h
  · exact .value h
  · exact tries_exact _ _
  · exact .value trivial
  · exact .value trivial
  · exact .bind .get fun _ _ _ _ _ => .fail _

end Veil

/-! ### Values of the host -/

namespace HostValue

mutual

/-- The values that the host can only pass on. -/
def values : HostValue → List Value
  | none | bool _ | int _ | float _ | string _ => []
  | sequence elements => valuesOf elements
  | mapping entries => valuesOfEntries entries
  | opaqueValue v => [v]

def valuesOf : List HostValue → List Value
  | [] => []
  | h :: hs => h.values ++ valuesOf hs

def valuesOfEntries : List (HostValue × HostValue) → List Value
  | [] => []
  | (k, h) :: hs => k.values ++ (h.values ++ valuesOfEntries hs)

end

theorem valuesOf_eq (hs : List HostValue) : valuesOf hs = hs.flatMap values := by
  induction hs with
  | nil => rfl
  | cons h hs ih => rw [valuesOf, ih, List.flatMap_cons]

theorem valuesOfEntries_eq (hs : List (HostValue × HostValue)) :
    valuesOfEntries hs = hs.flatMap fun e => e.1.values ++ e.2.values := by
  induction hs with
  | nil => rfl
  | cons h hs ih => rw [valuesOfEntries, ih, List.flatMap_cons, List.append_assoc]

/-- The host sees only values that are known. -/
theorem known_ofValueAt (hs : s.Sound V) {depth : Nat} {v : Value} (hv : v.Known V s) :
    ∀ w ∈ (ofValueAt s depth v).values, w.Known V s := by
  induction depth generalizing v with
  | zero =>
    cases v with
    | null | bool | int | float | str => simp [ofValueAt, values]
    | _ => simpa [ofValueAt, values] using hv
  | succ depth ih =>
    cases v with
    | list id =>
      simp only [ofValueAt, values, valuesOf_eq, List.mem_flatMap, List.mem_map]
      rintro w ⟨_, ⟨v, hmem, rfl⟩, hw⟩
      exact ih (hs.list v (Array.mem_toList_iff.mp hmem)) w hw
    | dict id =>
      simp only [ofValueAt, values, valuesOfEntries_eq, List.mem_flatMap, List.mem_map]
      rintro w ⟨_, ⟨e, hmem, rfl⟩, hw⟩
      rcases List.mem_append.mp hw with hw | hw
      · exact ih (Value.Known.ofKey s e.1) w hw
      · exact ih (hs.dict id e (Array.mem_toList_iff.mp hmem)) w hw
    | null | bool | int | float | str => simp [ofValueAt, values]
    | _ => simpa [ofValueAt, values] using hv

open Veil

mutual

/-- What the host gives back is known if the values that it passes on are. -/
theorem tries_toValue {s : Store} : (h : HostValue) → (∀ v ∈ h.values, v.Known V s) →
    V.Tries s (Value.Known V) h.toValue
  | .none, _ | .bool _, _ | .int _, _ | .float _, _ | .string _, _ => .value trivial
  | .opaqueValue v, hv => .value (hv v (List.mem_singleton_self v))
  | .sequence elements, hv =>
    .bind (tries_toValues elements hv) fun _ _ _ _ hvs =>
      .action (acts_newList fun v hv => hvs v (List.mem_toArray.mp hv))
  | .mapping entries, hv =>
    .bind (tries_toTable .empty entries hv) fun _ _ _ _ htable => .action (acts_newDict htable)

theorem tries_toValues {s : Store} : (hs : List HostValue) → (∀ v ∈ valuesOf hs, v.Known V s) →
    V.Tries s (fun t vs => ∀ v ∈ vs, v.Known V t) (toValues hs)
  | [], _ => .pure fun _ _ => List.forall_mem_nil _
  | h :: hs, hv => by
    obtain ⟨hh, hhs⟩ := List.forall_mem_append.mp hv
    refine .bind (tries_toValue h hh) fun t v hst _ hv => ?_
    refine .bind (tries_toValues hs fun w hw => (hhs w hw).mono hst) fun u vs htu _ hvs => ?_
    refine .pure fun x hux => List.forall_mem_cons.mpr ⟨hv.mono (htu.trans hux), ?_⟩
    exact fun w hw => (hvs w hw).mono hux

theorem tries_toTable {s : Store} {table : Table Key Value}
    (htable : table.All fun _ v => v.Known V s) :
    (hs : List (HostValue × HostValue)) → (∀ v ∈ valuesOfEntries hs, v.Known V s) →
      V.Tries s (fun t table => table.All fun _ v => v.Known V t) (toTable table hs)
  | [], _ => .pure fun _ hst => htable.mono fun _ _ hv => hv.mono hst
  | (k, h) :: hs, hv => by
    obtain ⟨hk, hrest⟩ := List.forall_mem_append.mp hv
    obtain ⟨hh, hhs⟩ := List.forall_mem_append.mp hrest
    refine .bind (tries_toValue k hk) fun t key hst _ _ => ?_
    refine .bind (tries_key key) fun u key htu _ _ => ?_
    have hsu := hst.trans htu
    refine .bind (tries_toValue h fun w hw => (hh w hw).mono hsu) fun x v hux _ hv => ?_
    have hsx := hsu.trans hux
    exact tries_toTable ((htable.mono fun _ _ hw => hw.mono hsx).put hv) hs fun w hw =>
      (hhs w hw).mono hsx

end

end HostValue

/-- A function of the host that makes up no values: those in what it gives were in the arguments, or
are handles of its own. -/
def HostFunction.Honest (f : HostFunction) : Prop :=
  ∀ arguments s handles result, (f.run arguments s handles).1 = .ok result →
    ∀ v ∈ result.values, v ∈ HostValue.valuesOf arguments ∨ ∃ id, v = .opaqueRef id

end Rill
