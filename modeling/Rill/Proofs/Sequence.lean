import Mathlib.Data.List.Basic
import Mathlib.Data.List.Induction
import Rill.Proofs.Indices

/-! Lists in the store, against plain sequences. -/
namespace Rill.Store

deriving instance DecidableEq for Trouble

/-! ### Attempts in a row -/

section

variable {α : Type}

/-- What an attempt gives, and the store it leaves. -/
def outcome (x : Attempt α) (s : Store) : Except Trouble α × Store :=
  match x s with
  | .ok a t => (.ok a, t)
  | .error trouble t => (.error trouble, t)

theorem outcome_of_ok {x : Attempt α} {s t : Store} {a : α} (h : x s = .ok a t) :
    outcome x s = (.ok a, t) := by
  rw [outcome, h]

theorem outcome_of_error {x : Attempt α} {s t : Store} {trouble : Trouble}
    (h : x s = .error trouble t) : outcome x s = (.error trouble, t) := by
  rw [outcome, h]

theorem mapError_fault_injective :
    Function.Injective (Except.mapError .fault : Except Fault α → Except Trouble α) := by
  intro r r' h
  cases r <;> cases r' <;> cases h <;> rfl

/-- Attempts one after another, each on the store that the one before left, whether it failed or
not. -/
def attemptAll : List (Attempt α) → Store → List (Except Trouble α) × Store
  | [], s => ([], s)
  | x :: xs, s =>
    let first := outcome x s
    let rest := attemptAll xs first.2
    (first.1 :: rest.1, rest.2)

theorem attemptAll_cons {x : Attempt α} {xs : List (Attempt α)} {s t u : Store}
    {r : Except Trouble α} {rs : List (Except Trouble α)} (hfirst : outcome x s = (r, t))
    (hrest : attemptAll xs t = (rs, u)) : attemptAll (x :: xs) s = (r :: rs, u) := by
  rw [attemptAll, hfirst]
  dsimp only
  rw [hrest]

end

/-! ### Operations -/

/-- What is done with a list. -/
inductive ListOp where
  | get (index : Int64)
  | set (index : Int64) (v : Value)
  | insert (index : Int64) (v : Value)
  | remove (index : Int64)
  | push (v : Value)
  | pop

namespace ListOp

/-- The operation on a list in the store, with what it returns, if anything. -/
def run (id : Nat) : ListOp → Attempt (Option Value)
  | get index => do return some (← listGet id index)
  | set index v => do
    listSet id index v
    return none
  | insert index v => do
    listInsert id index v
    return none
  | remove index => do return some (← listRemove id index)
  | push v => do
    listPush id v
    return none
  | pop => do return some (← listPop id)

def index? : ListOp → Option Int64
  | get index | set index _ | insert index _ | remove index => some index
  | push _ | pop => none

/-- Indices have to be below this. An insertion can also take place after all elements. -/
def limit (length : Nat) : ListOp → Int
  | insert _ _ => length + 1
  | _ => length

/-- What the operation makes of a sequence, and what it returns or how it fails. -/
inductive Does : ListOp → List Value → Except Fault (Option Value) → List Value → Prop
  | get {index : Int64} {front back : List Value} {v : Value}
      (h : Means (front ++ v :: back).length index.toInt (front ++ v :: back).length front.length) :
      Does (get index) (front ++ v :: back) (.ok (some v)) (front ++ v :: back)
  | set {index : Int64} {front back : List Value} {old v : Value}
      (h : Means (front ++ old :: back).length index.toInt (front ++ old :: back).length
        front.length) :
      Does (set index v) (front ++ old :: back) (.ok none) (front ++ v :: back)
  | insert {index : Int64} {front back : List Value} {v : Value}
      (h : Means (front ++ back).length index.toInt ((front ++ back).length + 1) front.length) :
      Does (insert index v) (front ++ back) (.ok none) (front ++ v :: back)
  | remove {index : Int64} {front back : List Value} {v : Value}
      (h : Means (front ++ v :: back).length index.toInt (front ++ v :: back).length front.length) :
      Does (remove index) (front ++ v :: back) (.ok (some v)) (front ++ back)
  | push (xs : List Value) (v : Value) : Does (push v) xs (.ok none) (xs ++ [v])
  | pop (xs : List Value) (v : Value) : Does pop (xs ++ [v]) (.ok (some v)) xs
  | popEmpty : Does pop [] (.error (.outOfRange (-1) 0)) []
  | outOfRange {op : ListOp} {xs : List Value} {index : Int64} (hindex : op.index? = some index)
      (hout : ¬(-(xs.length : Int) ≤ index.toInt ∧ index.toInt < op.limit xs.length)) :
      Does op xs (.error (.outOfRange index.toInt xs.length)) xs

/-- What operations make of a sequence one after another, whether they fail or not. -/
inductive Runs : List ListOp → List Value → List (Except Fault (Option Value)) → List Value → Prop
  | nil (xs : List Value) : Runs [] xs [] xs
  | cons {op : ListOp} {ops : List ListOp} {xs ys zs : List Value}
      {r : Except Fault (Option Value)} {rs : List (Except Fault (Option Value))}
      (first : Does op xs r ys) (rest : Runs ops ys rs zs) : Runs (op :: ops) xs (r :: rs) zs

theorem exists_append {xs : List Value} {position : Nat} (h : position ≤ xs.length) :
    ∃ front back, xs = front ++ back ∧ front.length = position :=
  ⟨xs.take position, xs.drop position, (List.take_append_drop ..).symm, List.length_take_of_le h⟩

theorem exists_append_cons {xs : List Value} {position : Nat} (h : position < xs.length) :
    ∃ front v back, xs = front ++ v :: back ∧ front.length = position := by
  obtain ⟨front, back, rfl, rfl⟩ := exists_append (Nat.le_of_lt h)
  cases back with
  | nil => simp at h
  | cons v back => exact ⟨front, v, back, rfl, rfl⟩

theorem exists_does (op : ListOp) (xs : List Value) : ∃ r ys, Does op xs r ys := by
  by_cases hout : ∃ index, op.index? = some index ∧
      ¬(-(xs.length : Int) ≤ index.toInt ∧ index.toInt < op.limit xs.length)
  · obtain ⟨index, hindex, hout⟩ := hout
    exact ⟨_, _, .outOfRange hindex hout⟩
  have hmeans {index : Int64} (hindex : op.index? = some index) :
      ∃ position, Means xs.length index.toInt (op.limit xs.length) position := by
    by_contra hnone
    refine hout ⟨index, hindex, fun hin => hnone ?_⟩
    exact Means.exists_of_le_of_lt hin.1 hin.2
  cases op with
  | get index =>
    obtain ⟨position, hposition⟩ := hmeans rfl
    obtain ⟨front, v, back, rfl, rfl⟩ := exists_append_cons hposition.lt
    exact ⟨_, _, .get hposition⟩
  | set index v =>
    obtain ⟨position, hposition⟩ := hmeans rfl
    obtain ⟨front, old, back, rfl, rfl⟩ := exists_append_cons hposition.lt
    exact ⟨_, _, .set hposition⟩
  | insert index v =>
    obtain ⟨position, hposition⟩ := hmeans rfl
    obtain ⟨front, back, rfl, rfl⟩ := exists_append hposition.le
    exact ⟨_, _, .insert hposition⟩
  | remove index =>
    obtain ⟨position, hposition⟩ := hmeans rfl
    obtain ⟨front, v, back, rfl, rfl⟩ := exists_append_cons hposition.lt
    exact ⟨_, _, .remove hposition⟩
  | push v => exact ⟨_, _, .push xs v⟩
  | pop =>
    induction xs using List.reverseRecOn with
    | nil => exact ⟨_, _, .popEmpty⟩
    | append_singleton xs v => exact ⟨_, _, .pop xs v⟩

end ListOp

/-! ### Lists in the store -/

section

variable {α : Type} (xs : Array α) (i : Nat)

theorem setIfInBounds_getD (default : α) : xs.setIfInBounds i (xs[i]?.getD default) = xs := by
  apply Array.ext_getElem?
  intro j
  by_cases hj : i = j
  · subst hj
    by_cases h : i < xs.size <;> simp [h]
  · simp [hj]

theorem modify_eq_setIfInBounds (f : α → α) (default : α) :
    xs.modify i f = xs.setIfInBounds i (f (xs[i]?.getD default)) := by
  apply Array.ext_getElem?
  intro j
  by_cases hj : i = j
  · subst hj
    by_cases h : i < xs.size <;> simp [Array.getElem_modify, h]
  · simp [Array.getElem?_modify, hj]

end

/-- The store with these elements in a list. -/
def withList (s : Store) (id : Nat) (xs : List Value) : Store :=
  { s with lists := s.lists.setIfInBounds id xs.toArray }

section

variable {s : Store} {id : Nat}

theorem list_withList (h : id < s.lists.size) (xs : List Value) :
    (s.withList id xs).list id = xs.toArray := by
  simp [list, withList, h]

theorem size_lists_withList (s : Store) (id : Nat) (xs : List Value) :
    (s.withList id xs).lists.size = s.lists.size := Array.size_setIfInBounds

theorem withList_withList (s : Store) (id : Nat) (xs ys : List Value) :
    (s.withList id xs).withList id ys = s.withList id ys := by
  simp [withList]

theorem withList_toList (s : Store) (id : Nat) : s.withList id (s.list id).toList = s := by
  rw [withList, Array.toArray_toList, list, setIfInBounds_getD]

theorem withList_injective (h : id < s.lists.size) {xs ys : List Value}
    (heq : s.withList id xs = s.withList id ys) : xs = ys := by
  have hlist : (s.withList id xs).list id = (s.withList id ys).list id := by rw [heq]
  rw [list_withList h, list_withList h] at hlist
  exact congrArg Array.toList hlist

theorem modifyList_eq {f : Array Value → Array Value} {xs : List Value}
    (h : (f (s.list id)).toList = xs) :
    (modifyList id f : Attempt Unit) s = .ok () (s.withList id xs) := by
  subst h
  change EStateM.Result.ok () { s with lists := s.lists.modify id f } = _
  rw [modify_eq_setIfInBounds _ id f #[]]
  rfl

theorem elementAt_append {front back : List Value} {v : Value}
    (h : (s.list id).toList = front ++ v :: back) : elementAt id front.length s = .ok v s := by
  have hlength := congrArg List.length h
  have hlt : front.length < (s.list id).size := by simp at hlength; omega
  have hget : (s.list id)[front.length] = v := by
    rw [← Array.getElem_toList hlt]
    simp [h]
  rw [elementAt_eq hlt, hget]

theorem listGet_eq {index : Int64} {front back : List Value} {v : Value}
    (hxs : (s.list id).toList = front ++ v :: back)
    (h : resolveIndex index (s.list id).size = .ok front.length) : listGet id index s = .ok v s :=
  (at_resolved h).trans (elementAt_append hxs)

theorem listSet_eq {index : Int64} {front back : List Value} {old v : Value}
    (hxs : (s.list id).toList = front ++ old :: back)
    (h : resolveIndex index (s.list id).size = .ok front.length) :
    listSet id index v s = .ok () (s.withList id (front ++ v :: back)) := by
  have hset : ((s.list id).setIfInBounds front.length v).toList = front ++ v :: back := by
    rw [Array.toList_setIfInBounds, hxs]
    simp
  rw [listSet, at_resolved h, bind_of_ok (demand_eq (resolveIndex_lt h)), modifyList_eq hset]

theorem insertIdx_append (front back : List Value) (v : Value) :
    (front ++ back).insertIdx front.length v = front ++ v :: back := by
  induction front with
  | nil => rfl
  | cons w front ih => rw [List.cons_append, List.length_cons, List.insertIdx_succ_cons, ih]; rfl

theorem listInsert_eq {index : Int64} {front back : List Value} {v : Value}
    (hxs : (s.list id).toList = front ++ back)
    (h : resolveInsertion index (s.list id).size = .ok front.length) :
    listInsert id index v s = .ok () (s.withList id (front ++ v :: back)) := by
  have hle := resolveInsertion_le h
  have hinsert : ((s.list id).insertIdxIfInBounds front.length v).toList = front ++ v :: back := by
    rw [Array.insertIdxIfInBounds, dif_pos hle, Array.toList_insertIdx, hxs, insertIdx_append]
  rw [listInsert, at_resolved h, bind_of_ok (demand_eq hle), modifyList_eq hinsert]

theorem listRemove_eq {index : Int64} {front back : List Value} {v : Value}
    (hxs : (s.list id).toList = front ++ v :: back)
    (h : resolveIndex index (s.list id).size = .ok front.length) :
    listRemove id index s = .ok v (s.withList id (front ++ back)) := by
  have herase : ((s.list id).eraseIdxIfInBounds front.length).toList = front ++ back := by
    rw [Array.toList_eraseIdxIfInBounds, hxs, List.eraseIdx_append_of_length_le (Nat.le_refl _),
      Nat.sub_self]
    rfl
  rw [listRemove, at_resolved h, bind_of_ok (elementAt_append hxs),
    bind_of_ok (modifyList_eq herase)]
  rfl

theorem listPop_eq {xs : List Value} {v : Value} (hxs : (s.list id).toList = xs ++ [v]) :
    listPop id s = .ok v (s.withList id xs) := by
  have hback : (s.list id).back? = some v := by rw [← Array.getLast?_toList, hxs]; simp
  have hpop : ((s.list id).pop).toList = xs := by rw [Array.toList_pop, hxs]; simp
  rw [listPop, bind_of_ok (get_eq s), hback]
  dsimp only
  rw [bind_of_ok (modifyList_eq hpop)]
  rfl

theorem listPop_of_nil (hxs : (s.list id).toList = []) :
    listPop id s = .error (.fault (.outOfRange (-1) 0)) s := by
  have hback : (s.list id).back? = none := by rw [← Array.getLast?_toList, hxs]; rfl
  rw [listPop, bind_of_ok (get_eq s), hback]
  rfl

namespace ListOp

theorem run_of_does {op : ListOp} {r : Except Fault (Option Value)} {ys : List Value}
    (h : op.Does (s.list id).toList r ys) :
    outcome (op.run id) s = (r.mapError .fault, s.withList id ys) := by
  generalize hxs : (s.list id).toList = xs at h
  have hsize : xs.length = (s.list id).size := by rw [← hxs, Array.length_toList]
  have hself : s.withList id xs = s := by rw [← hxs, withList_toList]
  cases h with
  | get h =>
    rw [hsize, ← resolveIndex_eq_ok_iff] at h
    rw [hself]
    exact outcome_of_ok (bind_of_ok (listGet_eq hxs h))
  | set h =>
    rw [hsize, ← resolveIndex_eq_ok_iff] at h
    exact outcome_of_ok (bind_of_ok (listSet_eq hxs h))
  | insert h =>
    rw [hsize, ← resolveInsertion_eq_ok_iff] at h
    exact outcome_of_ok (bind_of_ok (listInsert_eq hxs h))
  | remove h =>
    rw [hsize, ← resolveIndex_eq_ok_iff] at h
    exact outcome_of_ok (bind_of_ok (listRemove_eq hxs h))
  | push _ v =>
    have hpush : ((s.list id).push v).toList = xs ++ [v] := by rw [Array.toList_push, hxs]
    exact outcome_of_ok (bind_of_ok (modifyList_eq hpush))
  | pop _ v => exact outcome_of_ok (bind_of_ok (listPop_eq hxs))
  | popEmpty =>
    rw [hself]
    exact outcome_of_error (bind_of_error (listPop_of_nil hxs))
  | outOfRange hindex hout =>
    rw [hself]
    apply outcome_of_error
    cases op with
    | get index | set index v | remove index =>
      cases hindex
      rw [hsize] at hout ⊢
      have hresolve := resolveIndex_eq_error_iff.mpr ⟨hout, rfl⟩
      exact bind_of_error (of_not_resolved hresolve)
    | insert index v =>
      cases hindex
      rw [hsize] at hout ⊢
      exact bind_of_error (of_not_resolved (resolveInsertion_of_outside hout))
    | push | pop => cases hindex

theorem exists_runs (ops : List ListOp) (xs : List Value) : ∃ rs ys, Runs ops xs rs ys := by
  induction ops generalizing xs with
  | nil => exact ⟨[], xs, .nil xs⟩
  | cons op ops ih =>
    obtain ⟨r, ys, hfirst⟩ := op.exists_does xs
    obtain ⟨rs, zs, hrest⟩ := ih ys
    exact ⟨r :: rs, zs, .cons hfirst hrest⟩

theorem attemptAll_of_runs {ops : List ListOp} {xs ys : List Value}
    {rs : List (Except Fault (Option Value))} (h : Runs ops xs rs ys) (hid : id < s.lists.size)
    (hxs : (s.list id).toList = xs) :
    attemptAll (ops.map (run id)) s = (rs.map (Except.mapError .fault), s.withList id ys) := by
  induction h generalizing s with
  | nil xs => rw [← hxs, withList_toList]; rfl
  | @cons op ops xs ys zs r rs first rest ih =>
    rw [← hxs] at first
    have hlist : ((s.withList id ys).list id).toList = ys := by rw [list_withList hid]
    have hrest := ih (by rwa [size_lists_withList]) hlist
    rw [withList_withList] at hrest
    exact attemptAll_cons (run_of_does first) hrest

/-- The plain sequence decides all that happens. -/
theorem runs_iff (hid : id < s.lists.size) {ops : List ListOp} {xs ys ys' : List Value}
    {rs rs' : List (Except Fault (Option Value))} (hxs : (s.list id).toList = xs)
    (h : Runs ops xs rs ys) : Runs ops xs rs' ys' ↔ rs' = rs ∧ ys' = ys := by
  constructor
  · intro h'
    -- both say what one and the same list does
    have heq := (attemptAll_of_runs h' hid hxs).symm.trans (attemptAll_of_runs h hid hxs)
    obtain ⟨hanswers, hstore⟩ := Prod.mk.inj heq
    exact ⟨mapError_fault_injective.list_map hanswers, withList_injective hid hstore⟩
  · rintro ⟨rfl, rfl⟩
    exact h

end ListOp

end

/-- A list behaves under any operations as the plain sequence of its elements, and nothing else in the
store changes. An index means a position just if it is at least minus the length and below the length,
or equal to it where something is inserted. -/
theorem lists_are_sequences {s : Store} {id : Nat} (hid : id < s.lists.size) (ops : List ListOp) :
    (∃ rs xs, (∀ rs' xs', ListOp.Runs ops (s.list id).toList rs' xs' ↔ rs' = rs ∧ xs' = xs) ∧
      attemptAll (ops.map (ListOp.run id)) s =
        (rs.map (Except.mapError .fault), s.withList id xs)) ∧
    ∀ (index : Int64) (length : Nat),
      (∀ position, resolveIndex index length = .ok position ↔
        Means length index.toInt length position) ∧
      (∀ fault, resolveIndex index length = .error fault ↔
        ¬(-(length : Int) ≤ index.toInt ∧ index.toInt < length) ∧
          fault = .outOfRange index.toInt length) ∧
      (index.toInt < 0 → length < 2 ^ 63 →
        (index + Int64.ofNat length).toInt = index.toInt + length) := by
  constructor
  · obtain ⟨rs, xs, hruns⟩ := ListOp.exists_runs ops (s.list id).toList
    exact ⟨rs, xs, fun _ _ => ListOp.runs_iff hid rfl hruns,
      ListOp.attemptAll_of_runs hruns hid rfl⟩
  · intro index length
    exact ⟨fun _ => resolveIndex_eq_ok_iff, fun _ => resolveIndex_eq_error_iff, toInt_add_ofNat⟩

/-- From either end, at both ends and past them. -/
theorem lists_are_sequences_at_ends :
    let s : Store := { empty with lists := #[#[], #[.int 1, .int 2]] }
    let ops : List ListOp :=
      [.insert 2 (.int 3), .insert 4 .null, .insert (-3) (.int 0), .get (-5), .set (-1) .null,
        .remove (-4), .remove Int64.minValue, .pop, .pop, .pop, .pop, .get 0]
    let rs : List (Except Fault (Option Value)) :=
      [.ok none, .error (.outOfRange 4 3), .ok none, .error (.outOfRange (-5) 4), .ok none,
        .ok (some (.int 0)), .error (.outOfRange (-9223372036854775808) 3), .ok (some .null),
        .ok (some (.int 2)), .ok (some (.int 1)), .error (.outOfRange (-1) 0),
        .error (.outOfRange 0 0)]
    1 < s.lists.size ∧ ListOp.Runs ops [.int 1, .int 2] rs [] := by
  intro s ops rs
  have hid : 1 < s.lists.size := by decide
  obtain ⟨rs', xs', hruns, hall⟩ := (lists_are_sequences hid ops).1
  have hanswers : (attemptAll (ops.map (ListOp.run 1)) s).1 = rs.map (Except.mapError .fault) := by
    decide +kernel
  have hlist : (attemptAll (ops.map (ListOp.run 1)) s).2.list 1 = #[] := by decide +kernel
  rw [hall] at hanswers hlist
  rw [list_withList hid] at hlist
  refine ⟨hid, (hruns _ _).mpr ⟨?_, ?_⟩⟩
  · exact (mapError_fault_injective.list_map hanswers).symm
  · exact (congrArg Array.toList hlist).symm

end Rill.Store
