import Rill.Proofs.Places.Store

/-! Attempts do not see the places of functions. -/
namespace Rill

namespace Store

/-- On like stores, the attempt gives the same or fails alike, and leaves like stores. -/
abbrev TriesAlike {α : Type} (x : Attempt α) : Prop := Mirrors Like Eq Eq x x

namespace TriesAlike

variable {α β : Type}

theorem pure (a : α) : TriesAlike (Pure.pure a) := Mirrors.pure rfl

theorem fail (fault : Fault) : TriesAlike (α := α) (fail fault) := Mirrors.throw rfl

theorem bind {x : Attempt α} {f : α → Attempt β} (hx : TriesAlike x)
    (hf : ∀ a, TriesAlike (f a)) : TriesAlike (x >>= f) := by
  apply Mirrors.bind hx
  rintro a _ rfl
  exact hf a

/-- An attempt that looks at the store first. -/
theorem get {f : Store → Attempt α} (h : ∀ s t, s.Like t → f s = f t)
    (hf : ∀ s, TriesAlike (f s)) : TriesAlike (get >>= f) := by
  apply Mirrors.bind .get
  intro s t hst
  rw [h s t hst]
  exact hf t

theorem action {x : Action α} (h : ActsAlike x x) : TriesAlike (liftM x) := by
  intro s t hst
  obtain ⟨hvalue, hstore⟩ := h s t hst
  exact .ok hvalue hstore

theorem lift (e : Except Fault α) : TriesAlike (liftM e) := by
  cases e with
  | ok a => exact pure a
  | error fault => exact fail fault

end TriesAlike

theorem alike_listLength (id : Nat) : TriesAlike (listLength id) :=
  .get (fun _ _ hst => by rw [hst.list]) fun _ => .pure _

theorem alike_elementAt (id position : Nat) : TriesAlike (elementAt id position) := by
  apply TriesAlike.get
  · intro s t hst
    rw [hst.list]
  · intro s
    split
    · exact .pure _
    · exact Mirrors.throw rfl

theorem alike_listGet (id : Nat) (index : Int64) : TriesAlike (listGet id index) :=
  .bind (alike_listLength id) fun _ => .bind (.lift _) fun _ => alike_elementAt id _

theorem alike_demand (condition : Prop) [Decidable condition] : TriesAlike (demand condition) := by
  unfold demand
  split
  · exact .pure ()
  · exact Mirrors.throw rfl

theorem alike_listSet (id : Nat) (index : Int64) (v : Value) : TriesAlike (listSet id index v) :=
  .bind (alike_listLength id) fun _ => .bind (.lift _) fun _ => .bind (alike_demand _) fun _ =>
    .action (alike_modifyList id _)

theorem alike_listPush (id : Nat) (v : Value) : TriesAlike (listPush id v) :=
  .action (alike_modifyList id _)

theorem alike_listInsert (id : Nat) (index : Int64) (v : Value) :
    TriesAlike (listInsert id index v) :=
  .bind (alike_listLength id) fun _ => .bind (.lift _) fun _ => .bind (alike_demand _) fun _ =>
    .action (alike_modifyList id _)

theorem alike_listRemove (id : Nat) (index : Int64) : TriesAlike (listRemove id index) :=
  .bind (alike_listLength id) fun _ => .bind (.lift _) fun _ =>
    .bind (alike_elementAt id _) fun _ => .bind (.action (alike_modifyList id _)) fun _ => .pure _

theorem alike_listPop (id : Nat) : TriesAlike (listPop id) := by
  apply TriesAlike.get
  · intro s t hst
    rw [hst.list]
  · intro s
    split
    · exact .fail _
    · exact .bind (.action (alike_modifyList id _)) fun _ => .pure _

theorem alike_key (v : Value) : TriesAlike (key v) := by
  unfold key
  split
  · exact .pure _
  · exact .get (fun _ _ hst => by rw [hst.typeName]) fun _ => .fail _

theorem alike_dictGet? (id : Nat) (index : Value) : TriesAlike (dictGet? id index) :=
  .bind (alike_key index) fun _ => .get (fun _ _ hst => by rw [hst.dict]) fun _ => .pure _

/-- The failure of a look-up shows the key. -/
theorem alike_keyNotFound {α : Type} (index : Value) :
    TriesAlike (α := α) (do fail (.keyNotFound ((← get).repr index))) :=
  .get (fun _ _ hst => by rw [hst.repr]) fun _ => .fail _

theorem alike_dictGet (id : Nat) (index : Value) : TriesAlike (dictGet id index) := by
  apply TriesAlike.bind (alike_dictGet? id index)
  intro found
  cases found with
  | some v => exact .pure v
  | none => exact alike_keyNotFound index

theorem alike_dictSet (id : Nat) (index v : Value) : TriesAlike (dictSet id index v) :=
  .bind (alike_key index) fun _ => .action (alike_modifyDict id _)

theorem alike_dictRemove (id : Nat) (index : Value) : TriesAlike (dictRemove id index) := by
  apply TriesAlike.bind (alike_key index)
  intro key
  apply TriesAlike.get
  · intro s t hst
    rw [hst.dict]
  · intro s
    split
    · exact alike_keyNotFound index
    · exact .bind (.action (alike_modifyDict id _)) fun _ => .pure _

theorem alike_dictContains (id : Nat) (index : Value) : TriesAlike (dictContains id index) :=
  .bind (alike_key index) fun _ => .get (fun _ _ hst => by rw [hst.dict]) fun _ => .pure _

end Store

namespace Arithmetic

open Store

theorem alike_unsupported {α : Type} (op : BinaryOp) (lhs rhs : Value) :
    TriesAlike (α := α) (unsupported op lhs rhs) :=
  .get (fun _ _ hst => by rw [hst.typeName]) fun _ => .fail _

theorem alike_exact (operator : String) (i : Option Int64) : TriesAlike (exact operator i) := by
  cases i with
  | none => exact .fail _
  | some i => exact .pure _

theorem alike_settle (operator : String) (x : Except Exact.Excess Int64) :
    TriesAlike (settle operator x) := by
  cases x with
  | ok i => exact .pure _
  | error excess =>
    cases excess with
    | noticed => exact .fail _
    | unnoticed => exact Mirrors.throw rfl

theorem alike_onFloats {op : BinaryOp} {f : Binary64 → Binary64 → Attempt Value}
    (h : ∀ x y, TriesAlike (f x y)) (lhs rhs : Value) : TriesAlike (onFloats op f lhs rhs) := by
  unfold onFloats
  split
  · exact h _ _
  · exact alike_unsupported op lhs rhs

theorem alike_divideBy (f : Binary64 → Binary64 → Binary64) (x y : Binary64) :
    TriesAlike (divideBy f x y) := by
  unfold divideBy
  split
  · exact .fail _
  · exact .pure _

theorem alike_repetitions (length : Nat) (count : Int64) :
    TriesAlike (repetitions length count) := by
  unfold repetitions
  dsimp only
  split
  · exact .pure _
  split
  · exact .pure _
  · exact .fail _

theorem alike_repeatString (s : String) (count : Int64) : TriesAlike (repeatString s count) :=
  .bind (alike_repetitions _ count) fun _ => .pure _

theorem alike_repeatList (id : Nat) (count : Int64) : TriesAlike (repeatList id count) :=
  .get (fun _ _ hst => by rw [hst.list]) fun _ =>
    .bind (alike_repetitions _ count) fun _ => .action (alike_newList _)

theorem alike_bitwise (op : BinaryOp) (ints : Int64 → Int64 → Int64) (bools : Bool → Bool → Bool)
    (lhs rhs : Value) : TriesAlike (bitwise op ints bools lhs rhs) := by
  unfold bitwise
  split
  · exact .pure _
  · exact .pure _
  · exact alike_unsupported op _ _

theorem alike_shift (op : BinaryOp) (f : Int64 → Int64 → Option Int64) (lhs rhs : Value) :
    TriesAlike (shift op f lhs rhs) := by
  unfold shift
  split
  · exact alike_exact _ _
  · exact alike_unsupported op _ _

theorem alike_compareBy (op : BinaryOp) (holds : Ordering → Bool) (lhs rhs : Value) :
    TriesAlike (compareBy op holds lhs rhs) := by
  unfold compareBy
  split
  · exact .pure _
  · exact alike_unsupported op lhs rhs

theorem alike_add (lhs rhs : Value) : TriesAlike (add lhs rhs) := by
  unfold add
  split
  · exact alike_exact _ _
  · exact .pure _
  · exact .get (fun _ _ hst => by rw [hst.list]) fun _ => .action (alike_newList _)
  · exact alike_onFloats (fun _ _ => .pure _) _ _

theorem alike_mul (lhs rhs : Value) : TriesAlike (mul lhs rhs) := by
  unfold mul
  split
  · exact alike_exact _ _
  · exact alike_repeatString _ _
  · exact alike_repeatString _ _
  · exact alike_repeatList _ _
  · exact alike_repeatList _ _
  · exact alike_onFloats (fun _ _ => .pure _) _ _

/-- An operation with a case of its own for two integers, and one for floats. -/
theorem alike_ofNumbers {op : BinaryOp} {ints : Int64 → Int64 → Attempt Value}
    {floats : Binary64 → Binary64 → Attempt Value} (hi : ∀ i j, TriesAlike (ints i j))
    (hf : ∀ x y, TriesAlike (floats x y)) (lhs rhs : Value) :
    TriesAlike (match lhs, rhs with
      | .int i, .int j => ints i j
      | _, _ => onFloats op floats lhs rhs) := by
  split
  · exact hi _ _
  · exact alike_onFloats hf _ _

theorem alike_unless {condition : Prop} [Decidable condition] {x : Attempt Value}
    (h : TriesAlike x) : TriesAlike (if condition then fail .divByZero else x) := by
  split
  · exact .fail _
  · exact h

theorem alike_binary (op : BinaryOp) (lhs rhs : Value) : TriesAlike (binary op lhs rhs) := by
  cases op with
  | add => exact alike_add lhs rhs
  | mul => exact alike_mul lhs rhs
  | sub => exact alike_ofNumbers (fun _ _ => alike_exact _ _) (fun _ _ => .pure _) lhs rhs
  | div => exact alike_ofNumbers (fun _ _ => alike_divideBy _ _ _) (alike_divideBy _) lhs rhs
  | floorDiv =>
    exact alike_ofNumbers (fun _ _ => alike_unless (alike_settle _ _)) (alike_divideBy _) lhs rhs
  | mod =>
    exact alike_ofNumbers (fun _ _ => alike_unless (alike_settle _ _)) (alike_divideBy _) lhs rhs
  | pow =>
    exact alike_ofNumbers (fun _ _ => alike_unless (alike_exact _ _)) (fun _ _ => .pure _) lhs rhs
  | bitAnd | bitOr | bitXor => exact alike_bitwise _ _ _ lhs rhs
  | shiftLeft | shiftRight => exact alike_shift _ _ lhs rhs
  | lt | le | gt | ge => exact alike_compareBy _ _ lhs rhs
  | eq | ne => exact .pure _

theorem alike_unary (op : UnaryOp) (operand : Value) : TriesAlike (unary op operand) := by
  unfold unary
  split
  · exact .get (fun _ _ hst => by rw [hst.isTruthy]) fun _ => .pure _
  · exact .pure _
  · exact .pure _
  · exact alike_exact _ _
  · exact .pure _
  · exact .pure _
  · exact .get (fun _ _ hst => by rw [hst.typeName]) fun _ => .fail _

end Arithmetic

namespace HostValue

open Store

theorem ofValueAt_bare (s : Store) (depth : Nat) : ofValueAt s.bare depth = ofValueAt s depth := by
  induction depth with
  | zero =>
    funext v
    cases v <;> rfl
  | succ depth ih =>
    funext v
    cases v with
    | list id =>
      have hlist : s.bare.list id = s.list id := rfl
      rw [ofValueAt, ofValueAt, ih, hlist]
    | dict id =>
      have hdict : s.bare.dict id = s.dict id := rfl
      rw [ofValueAt, ofValueAt, ih, hdict]
    | _ => rfl

theorem ofValue_like {s t : Store} (h : s.Like t) : ofValue s = ofValue t :=
  h.congr fun u => funext fun v => congrFun (ofValueAt_bare u _) v

mutual

theorem alike_toValue : (h : HostValue) → TriesAlike h.toValue
  | .none | .bool _ | .int _ | .float _ | .string _ | .opaqueValue _ => .pure _
  | .sequence elements => .bind (alike_toValues elements) fun _ => .action (alike_newList _)
  | .mapping entries => .bind (alike_toTable Table.empty entries) fun _ => .action (alike_newDict _)

theorem alike_toValues : (hs : List HostValue) → TriesAlike (toValues hs)
  | [] => .pure _
  | h :: hs => .bind (alike_toValue h) fun _ => .bind (alike_toValues hs) fun _ => .pure _

theorem alike_toTable (table : Table Key Value) :
    (hs : List (HostValue × HostValue)) → TriesAlike (toTable table hs)
  | [] => .pure _
  | (k, h) :: hs =>
    .bind (alike_toValue k) fun v => .bind (alike_key v) fun _ =>
      .bind (alike_toValue h) fun _ => alike_toTable _ hs

end

end HostValue
end Rill
