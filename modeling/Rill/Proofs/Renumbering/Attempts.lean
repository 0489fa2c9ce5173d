import Rill.Arithmetic
import Rill.Proofs.Outcome
import Rill.Proofs.Renumbering.Actions
import Rill.Proofs.Veil.Attempts

/-! Computations with a state of which one has a function more, and what may fail on stores. -/
namespace Rill.Renumbering

open Store (Renumbered)

section

variable {ε σ : Type}

/-- Both computations gave the same up to the numbers of functions, or failed with the same. The
states that are left are related by `S`, and at least `k` functions were made. -/
inductive Ended {α : Type} [Carries α] (S : σ → σ → Prop) (made : σ → Nat) (n k : Nat) :
    EStateM.Result ε σ α → EStateM.Result ε σ α → Prop
  | ok {a b : α} {s t : σ} : b = renumber n a → Below (made s) a → S s t → k ≤ made s →
      Ended S made n k (.ok a s) (.ok b t)
  | error {e : ε} {s t : σ} : S s t → k ≤ made s → Ended S made n k (.error e s) (.error e t)

/-- From related states with at least `k` functions, both computations end the same. -/
def Renumbers {α : Type} [Carries α] (S : σ → σ → Prop) (made : σ → Nat) (n k : Nat)
    (x y : EStateM ε σ α) : Prop :=
  ∀ s t, S s t → k ≤ made s → Ended S made n k (x s) (y t)

variable {S : σ → σ → Prop} {made : σ → Nat} {n k : Nat} {α β : Type} [Carries α] [Carries β]

theorem Ended.weaken {j : Nat} {r r' : EStateM.Result ε σ α} (h : Ended S made n j r r')
    (hk : k ≤ j) : Ended S made n k r r' := by
  cases h with
  | ok hb ha hst hj => exact .ok hb ha hst (hk.trans hj)
  | error hst hj => exact .error hst (hk.trans hj)

namespace Renumbers

variable {x y : EStateM ε σ α}

theorem pure {a b : α} (hb : b = renumber n a) (ha : Below k a) :
    Renumbers (ε := ε) S made n k (Pure.pure a) (Pure.pure b) :=
  fun _ _ hst hk => .ok hb (ha.mono hk) hst hk

/-- A result in which no values can stand. -/
theorem done {γ : Type} (c : γ) :
    @Renumbers ε σ γ (.plain γ) S made n k (Pure.pure c) (Pure.pure c) :=
  @pure ε σ S made n k γ (.plain γ) c c rfl trivial

theorem throw (e : ε) : Renumbers S made n k (MonadExcept.throw e : EStateM ε σ α)
    (MonadExcept.throw e) :=
  fun _ _ hst hk => .error hst hk

theorem bind {f g : α → EStateM ε σ β} (hx : Renumbers S made n k x y)
    (hf : ∀ j a, k ≤ j → Below j a → Renumbers S made n j (f a) (g (renumber n a))) :
    Renumbers S made n k (x >>= f) (y >>= g) := by
  intro s t hst hk
  have hxy := hx s t hst hk
  generalize hs : x s = r at hxy
  generalize ht : y t = r' at hxy
  cases hxy with
  | ok hb ha hst hk =>
    subst hb
    rw [bind_of_ok hs, bind_of_ok ht]
    exact (hf _ _ hk ha _ _ hst le_rfl).weaken hk
  | error hst hk =>
    rw [bind_of_error hs, bind_of_error ht]
    exact .error hst hk

/-- What goes on after a result in which no values can stand. -/
theorem andThen {γ : Type} {x y : EStateM ε σ γ} {f g : γ → EStateM ε σ β}
    (hx : @Renumbers ε σ γ (.plain γ) S made n k x y)
    (hf : ∀ j c, k ≤ j → Renumbers S made n j (f c) (g c)) :
    Renumbers S made n k (x >>= f) (y >>= g) :=
  @bind ε σ S made n k γ β (.plain γ) _ x y f g hx fun j c hj _ => hf j c hj

theorem mapM {γ δ : Type} {f : γ → EStateM ε σ α} {g : δ → EStateM ε σ α} {φ : γ → δ}
    {as : List γ} (h : ∀ j, ∀ a ∈ as, k ≤ j → Renumbers S made n j (f a) (g (φ a))) :
    Renumbers S made n k (as.mapM f) ((as.map φ).mapM g) := by
  induction as generalizing k with
  | nil => exact pure rfl nofun
  | cons a as ih =>
    rw [List.map_cons, List.mapM_cons, List.mapM_cons]
    refine .bind (h k a List.mem_cons_self le_rfl) fun j b hj hb => ?_
    have hrest := ih fun i a ha hi => h i a (List.mem_cons_of_mem _ ha) (hj.trans hi)
    refine .bind hrest fun i bs hi hbs => ?_
    exact .pure rfl (below_cons (hb.mono hi) hbs)

end Renumbers

end

/-- On stores of which one has a function more, both attempts give the same, or fail with the
same. -/
abbrev Tries {α : Type} [Carries α] (n k : Nat) (x y : Store.Attempt α) : Prop :=
  Renumbers (Renumbered n) (fun s => s.functions.size) n k x y

namespace Tries

variable {n k : Nat} {α β : Type} [Carries α] [Carries β]

theorem bind {x y : Store.Attempt α} {f g : α → Store.Attempt β} (hx : Tries n k x y)
    (hf : ∀ j a, k ≤ j → Below j a → Tries n j (f a) (g (renumber n a))) :
    Tries n k (x >>= f) (y >>= g) :=
  Renumbers.bind hx hf

theorem andThen {γ : Type} {x y : Store.Attempt γ} {f g : γ → Store.Attempt β}
    (hx : @Tries γ (.plain γ) n k x y) (hf : ∀ j c, k ≤ j → Tries n j (f c) (g c)) :
    Tries n k (x >>= f) (y >>= g) :=
  Renumbers.andThen hx hf

theorem fail (fault : Fault) : Tries (α := α) n k (Store.fail fault) (Store.fail fault) :=
  Renumbers.throw _

theorem get {f g : Store → Store.Attempt α}
    (h : ∀ s t, s.Renumbered n t → k ≤ s.functions.size → Tries n s.functions.size (f s) (g t)) :
    Tries n k (get >>= f) (get >>= g) :=
  fun s t hst hk => (h s t hst hk s t hst le_rfl).weaken hk

theorem action {x y : Store.Action α} (h : Acts n k x y) : Tries n k (liftM x) (liftM y) := by
  intro s t hst hk
  obtain ⟨hvalue, hbelow, hstore, hle⟩ := h s t hst hk
  exact .ok hvalue hbelow hstore hle

theorem lift {γ : Type} (e : Except Fault γ) : @Tries γ (.plain γ) n k (liftM e) (liftM e) := by
  cases e with
  | ok c => exact Renumbers.done c
  | error fault => exact @fail n k γ (.plain γ) fault

end Tries

end Rill.Renumbering

namespace Rill.Store

open Renumbering

variable {n k : Nat}

theorem tries_listLength (id : Nat) : Tries n k (listLength id) (listLength id) := by
  refine .get fun s t hst _ => ?_
  rw [hst.list, renumber_size]
  exact .done _

theorem tries_elementAt (id position : Nat) :
    Tries n k (elementAt id position) (elementAt id position) := by
  refine .get fun s t hst _ => ?_
  rw [hst.list, renumber_getElem?]
  cases h : (s.list id)[position]? with
  | none => exact .throw _
  | some v => exact .pure rfl (hst.closed.list id v (Array.mem_of_getElem? h))

theorem tries_demand (condition : Prop) [Decidable condition] :
    Tries n k (demand condition) (demand condition) := by
  unfold demand
  split
  · exact .done ()
  · exact .throw _

theorem tries_listGet (id : Nat) (index : Int64) :
    Tries n k (listGet id index) (listGet id index) :=
  .andThen (tries_listLength id) fun _ _ _ => .andThen (.lift _) fun _ _ _ => tries_elementAt id _

theorem tries_listSet (id : Nat) (index : Int64) {v : Value} (h : Below k v) :
    Tries n k (listSet id index v) (listSet id index (renumber n v)) := by
  refine .andThen (tries_listLength id) fun i _ hi => .andThen (.lift _) fun j position hj =>
    .andThen (tries_demand _) fun l _ hl => .action (acts_modifyList id ?_ ?_)
  · intro m elements hm he
    exact below_setIfInBounds he (h.mono (hi.trans (hj.trans (hl.trans hm)))) position
  · exact fun elements => renumber_setIfInBounds elements position v

theorem tries_listPush (id : Nat) {v : Value} (h : Below k v) :
    Tries n k (listPush id v) (listPush id (renumber n v)) :=
  .action (acts_modifyList id (fun _ _ hj he => below_push he (h.mono hj))
    fun elements => renumber_push elements v)

theorem tries_listInsert (id : Nat) (index : Int64) {v : Value} (h : Below k v) :
    Tries n k (listInsert id index v) (listInsert id index (renumber n v)) := by
  refine .andThen (tries_listLength id) fun i _ hi => .andThen (.lift _) fun j position hj =>
    .andThen (tries_demand _) fun l _ hl => .action (acts_modifyList id ?_ ?_)
  · intro m elements hm he
    exact below_insertIdxIfInBounds he (h.mono (hi.trans (hj.trans (hl.trans hm)))) position
  · exact fun elements => renumber_insertIdxIfInBounds elements position v

theorem tries_listRemove (id : Nat) (index : Int64) :
    Tries n k (listRemove id index) (listRemove id index) := by
  refine .andThen (tries_listLength id) fun _ _ _ => .andThen (.lift _) fun _ position _ =>
    .bind (tries_elementAt id _) fun _ v _ hv => .bind (.action (acts_modifyList id ?_ ?_))
      fun _ _ hj _ => .pure rfl (hv.mono hj)
  · exact fun _ elements _ he => below_eraseIdxIfInBounds he position
  · exact fun elements => renumber_eraseIdxIfInBounds elements position

theorem tries_listPop (id : Nat) : Tries n k (listPop id) (listPop id) := by
  refine .get fun s t hst _ => ?_
  rw [hst.list, renumber_back?]
  cases h : (s.list id).back? with
  | none => exact .fail _
  | some v =>
    have hv : Below s.functions.size v := below_back? (hst.closed.list id) v h
    exact .bind (.action (acts_modifyList id (fun _ _ _ he => below_pop he) renumber_pop))
      fun _ _ hj _ => .pure rfl (hv.mono hj)

theorem tries_key (v : Value) : Tries n k (key v) (key (renumber n v)) := by
  unfold key
  rw [show Key.ofValue? (renumber n v) = Key.ofValue? v from Value.ofValue?_renumber n v]
  split
  · exact .done _
  · refine .get fun s t hst _ => ?_
    rw [hst.typeName]
    exact .fail _

/-- The failure of a look-up shows the key. -/
theorem tries_keyNotFound {α : Type} [Carries α] (index : Value) :
    Tries (α := α) n k (do fail (.keyNotFound ((← get).repr index)))
      (do fail (.keyNotFound ((← get).repr (renumber n index)))) := by
  refine .get fun s t hst _ => ?_
  rw [hst.repr]
  exact .fail _

theorem tries_dictGet? (id : Nat) (index : Value) :
    Tries n k (dictGet? id index) (dictGet? id (renumber n index)) := by
  refine .andThen (tries_key index) fun _ key _ => .get fun s t hst _ => .pure ?_ ?_
  · rw [hst.dict, Table.get?_renumber]
  · exact fun _ hv => Table.All.get? (hst.closed.dict id) hv

theorem tries_dictGet (id : Nat) (index : Value) :
    Tries n k (dictGet id index) (dictGet id (renumber n index)) := by
  refine .bind (tries_dictGet? id index) fun _ found _ hfound => ?_
  cases found with
  | some v => exact .pure rfl (hfound v rfl)
  | none => exact tries_keyNotFound index

theorem tries_dictSet (id : Nat) (index : Value) {v : Value} (h : Below k v) :
    Tries n k (dictSet id index v) (dictSet id (renumber n index) (renumber n v)) := by
  refine .andThen (tries_key index) fun _ key hj => .action (acts_modifyDict id ?_ ?_)
  · exact fun _ entries hi he => Table.All.put he (h.mono (hj.trans hi))
  · exact fun entries => Table.put_renumber entries key v

theorem tries_dictRemove (id : Nat) (index : Value) :
    Tries n k (dictRemove id index) (dictRemove id (renumber n index)) := by
  refine .andThen (tries_key index) fun _ key _ => .get fun s t hst _ => ?_
  rw [hst.dict, Table.get?_renumber]
  cases h : (s.dict id).get? key with
  | none => exact tries_keyNotFound index
  | some v =>
    have hv : Below s.functions.size v := Table.All.get? (hst.closed.dict id) h
    refine .bind (.action (acts_modifyDict id ?_ ?_)) fun _ _ hj _ => .pure rfl (hv.mono hj)
    · exact fun _ entries _ he => Table.All.erase he key
    · exact fun entries => Table.erase_renumber entries key

theorem tries_dictContains (id : Nat) (index : Value) :
    Tries n k (dictContains id index) (dictContains id (renumber n index)) := by
  refine .andThen (tries_key index) fun _ key _ => .get fun s t hst _ => ?_
  rw [hst.dict, Table.contains_renumber]
  exact .done _

end Rill.Store

namespace Rill.Arithmetic

open Renumbering Store

variable {n k : Nat}

theorem floats?_renumber (v w : Value) :
    floats? (renumber n v) (renumber n w) = floats? v w := by
  cases v with
  | int i => cases w <;> rfl
  | float x => cases w <;> rfl
  | _ => rfl

theorem order?_renumber (v w : Value) : order? (renumber n v) (renumber n w) = order? v w := by
  cases v with
  | int i => cases w <;> rfl
  | float x => cases w <;> rfl
  | str s => cases w <;> rfl
  | _ => rfl

theorem comparable_renumber (v w : Value) :
    comparable (renumber n v) (renumber n w) = comparable v w := by
  cases v with
  | int i => cases w <;> rfl
  | float x => cases w <;> rfl
  | str s => cases w <;> rfl
  | _ => rfl

theorem tries_unsupported {α : Type} [Carries α] (op : BinaryOp) (lhs rhs : Value) :
    Tries (α := α) n k (unsupported op lhs rhs)
      (unsupported op (renumber n lhs) (renumber n rhs)) := by
  refine .get fun s t hst _ => ?_
  rw [hst.typeName, hst.typeName]
  exact .fail _

theorem tries_exact (operator : String) (i : Option Int64) :
    Tries n k (exact operator i) (exact operator i) := by
  cases i with
  | none => exact .fail _
  | some i => exact .pure rfl trivial

theorem tries_settle (operator : String) (x : Except Exact.Excess Int64) :
    Tries n k (settle operator x) (settle operator x) := by
  cases x with
  | ok i => exact .pure rfl trivial
  | error excess =>
    cases excess with
    | noticed => exact .fail _
    | unnoticed => exact .throw _

theorem tries_onFloats {op : BinaryOp} {f : Binary64 → Binary64 → Attempt Value}
    (h : ∀ x y, Tries n k (f x y) (f x y)) (lhs rhs : Value) :
    Tries n k (onFloats op f lhs rhs) (onFloats op f (renumber n lhs) (renumber n rhs)) := by
  unfold onFloats
  rw [floats?_renumber]
  split
  · exact h _ _
  · exact tries_unsupported op lhs rhs

theorem tries_divideBy (f : Binary64 → Binary64 → Binary64) (x y : Binary64) :
    Tries n k (divideBy f x y) (divideBy f x y) := by
  unfold divideBy
  split
  · exact .fail _
  · exact .pure rfl trivial

theorem tries_repetitions (length : Nat) (count : Int64) :
    Tries n k (repetitions length count) (repetitions length count) := by
  unfold repetitions
  dsimp only
  split
  · exact .done _
  split
  · exact .done _
  · exact .fail _

theorem tries_repeatString (s : String) (count : Int64) :
    Tries n k (repeatString s count) (repeatString s count) :=
  .andThen (tries_repetitions _ count) fun _ _ _ => .pure rfl trivial

theorem renumber_repeatArray (xs : Array Value) (times : Nat) (acc : Array Value) :
    renumber n (repeatArray xs times acc) =
      repeatArray (renumber n xs) times (renumber n acc) := by
  induction times generalizing acc with
  | zero => rfl
  | succ times ih => rw [repeatArray, repeatArray, ih, renumber_append]

theorem below_repeatArray {xs acc : Array Value} (h : Below k xs) (hacc : Below k acc)
    (times : Nat) : Below k (repeatArray xs times acc) := by
  induction times generalizing acc with
  | zero => exact hacc
  | succ times ih => exact ih (below_append hacc h)

theorem tries_repeatList (id : Nat) (count : Int64) :
    Tries n k (repeatList id count) (repeatList id count) := by
  refine .get fun s t hst _ => ?_
  rw [hst.list]
  dsimp only
  rw [renumber_size]
  refine .andThen (tries_repetitions _ count) fun j times hj => ?_
  have hempty : renumber n (#[] : Array Value) = #[] := renumber_empty
  rw [← hempty, ← renumber_repeatArray, hempty]
  exact .action (acts_newList
    (below_repeatArray ((hst.closed.list id).mono hj) (below_empty j) times))

theorem tries_bitwise (op : BinaryOp) (ints : Int64 → Int64 → Int64) (bools : Bool → Bool → Bool)
    (lhs rhs : Value) :
    Tries n k (bitwise op ints bools lhs rhs)
      (bitwise op ints bools (renumber n lhs) (renumber n rhs)) := by
  cases lhs with
  | int i =>
    cases rhs with
    | int j => exact .pure rfl trivial
    | _ => exact tries_unsupported op _ _
  | bool a =>
    cases rhs with
    | bool b => exact .pure rfl trivial
    | _ => exact tries_unsupported op _ _
  | _ => exact tries_unsupported op _ rhs

theorem tries_shift (op : BinaryOp) (f : Int64 → Int64 → Option Int64) (lhs rhs : Value) :
    Tries n k (shift op f lhs rhs) (shift op f (renumber n lhs) (renumber n rhs)) := by
  cases lhs with
  | int i =>
    cases rhs with
    | int j => exact tries_exact _ _
    | _ => exact tries_unsupported op _ _
  | _ => exact tries_unsupported op _ rhs

theorem tries_compareBy (op : BinaryOp) (holds : Ordering → Bool) (lhs rhs : Value) :
    Tries n k (compareBy op holds lhs rhs)
      (compareBy op holds (renumber n lhs) (renumber n rhs)) := by
  unfold compareBy
  rw [comparable_renumber, order?_renumber]
  split
  · exact .pure rfl trivial
  · exact tries_unsupported op lhs rhs

theorem tries_add (lhs rhs : Value) :
    Tries n k (add lhs rhs) (add (renumber n lhs) (renumber n rhs)) := by
  have hfloats (v w : Value) :
      Tries n k (onFloats .add (fun x y => return .float (x.add y)) v w)
        (onFloats .add (fun x y => return .float (x.add y)) (renumber n v) (renumber n w)) := by
    apply tries_onFloats
    intro x y
    exact .pure rfl trivial
  unfold add
  cases lhs with
  | int i =>
    cases rhs with
    | int j => exact tries_exact _ _
    | _ => exact hfloats _ _
  | str s =>
    cases rhs with
    | str t => exact .pure rfl trivial
    | _ => exact hfloats _ _
  | list a =>
    cases rhs with
    | list b =>
      refine .get fun s t hst _ => ?_
      rw [hst.list, hst.list, ← renumber_append]
      exact .action (acts_newList (below_append (hst.closed.list a) (hst.closed.list b)))
    | _ => exact hfloats _ _
  | _ => exact hfloats _ rhs

theorem tries_mul (lhs rhs : Value) :
    Tries n k (mul lhs rhs) (mul (renumber n lhs) (renumber n rhs)) := by
  have hfloats (v w : Value) :
      Tries n k (onFloats .mul (fun x y => return .float (x.mul y)) v w)
        (onFloats .mul (fun x y => return .float (x.mul y)) (renumber n v) (renumber n w)) := by
    apply tries_onFloats
    intro x y
    exact .pure rfl trivial
  unfold mul
  cases lhs with
  | int i =>
    cases rhs with
    | int j => exact tries_exact _ _
    | str s => exact tries_repeatString s i
    | list id => exact tries_repeatList id i
    | _ => exact hfloats _ _
  | str s =>
    cases rhs with
    | int i => exact tries_repeatString s i
    | _ => exact hfloats _ _
  | list id =>
    cases rhs with
    | int i => exact tries_repeatList id i
    | _ => exact hfloats _ _
  | _ => cases rhs <;> exact hfloats _ _

/-- An operation with a case of its own for two integers, and one for floats. -/
theorem tries_ofNumbers {op : BinaryOp} {ints : Int64 → Int64 → Attempt Value}
    {floats : Binary64 → Binary64 → Attempt Value} (hi : ∀ i j, Tries n k (ints i j) (ints i j))
    (hf : ∀ x y, Tries n k (floats x y) (floats x y)) (lhs rhs : Value) :
    Tries n k (match lhs, rhs with
      | .int i, .int j => ints i j
      | _, _ => onFloats op floats lhs rhs)
      (match renumber n lhs, renumber n rhs with
      | .int i, .int j => ints i j
      | _, _ => onFloats op floats (renumber n lhs) (renumber n rhs)) := by
  cases lhs with
  | int i =>
    cases rhs with
    | int j => exact hi i j
    | _ => exact tries_onFloats hf _ _
  | _ => exact tries_onFloats hf _ rhs

theorem tries_unless {condition : Prop} [Decidable condition] {x : Attempt Value}
    (h : Tries n k x x) :
    Tries n k (if condition then fail .divByZero else x)
      (if condition then fail .divByZero else x) := by
  split
  · exact .fail _
  · exact h

theorem tries_binary (op : BinaryOp) (lhs rhs : Value) :
    Tries n k (binary op lhs rhs) (binary op (renumber n lhs) (renumber n rhs)) := by
  cases op with
  | add => exact tries_add lhs rhs
  | mul => exact tries_mul lhs rhs
  | sub =>
    refine tries_ofNumbers (fun _ _ => tries_exact _ _) (fun _ _ => ?_) lhs rhs
    exact .pure rfl trivial
  | div => exact tries_ofNumbers (fun _ _ => tries_divideBy _ _ _) (tries_divideBy _) lhs rhs
  | floorDiv =>
    exact tries_ofNumbers (fun _ _ => tries_unless (tries_settle _ _)) (tries_divideBy _) lhs rhs
  | mod =>
    exact tries_ofNumbers (fun _ _ => tries_unless (tries_settle _ _)) (tries_divideBy _) lhs rhs
  | pow =>
    refine tries_ofNumbers (fun _ _ => tries_unless (tries_exact _ _)) (fun _ _ => ?_) lhs rhs
    exact .pure rfl trivial
  | bitAnd | bitOr | bitXor => exact tries_bitwise _ _ _ lhs rhs
  | shiftLeft | shiftRight => exact tries_shift _ _ lhs rhs
  | lt | le | gt | ge => exact tries_compareBy _ _ lhs rhs
  | eq => exact .pure (congrArg Value.bool (Value.same_renumber n lhs rhs)) trivial
  | ne => exact .pure (congrArg (fun b => Value.bool !b) (Value.same_renumber n lhs rhs)) trivial

theorem tries_unary (op : UnaryOp) (operand : Value) :
    Tries n k (unary op operand) (unary op (renumber n operand)) := by
  have hno : Tries n k (do fail (.unsupportedOperand op.text ((← get).typeName operand)))
      (do fail (.unsupportedOperand op.text ((← get).typeName (renumber n operand))) :
        Attempt Value) := by
    refine .get fun s t hst _ => ?_
    rw [hst.typeName]
    exact .fail _
  cases op with
  | bang =>
    refine .get fun s t hst _ => ?_
    rw [hst.isTruthy]
    exact .pure rfl trivial
  | plus =>
    cases operand with
    | int i => exact .pure rfl trivial
    | float x => exact .pure rfl trivial
    | _ => exact hno
  | minus =>
    cases operand with
    | int i => exact tries_exact _ _
    | float x => exact .pure rfl trivial
    | _ => exact hno
  | tilde =>
    cases operand with
    | int i => exact .pure rfl trivial
    | _ => exact hno

end Rill.Arithmetic

namespace Rill.HostValue

open Renumbering Store

mutual

/-- What the host sees where there is one function more. -/
def renumbered (n : Nat) : HostValue → HostValue
  | sequence elements => sequence (renumberedAll n elements)
  | mapping entries => mapping (renumberedEntries n entries)
  | opaqueValue v => opaqueValue (renumber n v)
  | h => h

def renumberedAll (n : Nat) : List HostValue → List HostValue
  | [] => []
  | h :: hs => h.renumbered n :: renumberedAll n hs

def renumberedEntries (n : Nat) : List (HostValue × HostValue) → List (HostValue × HostValue)
  | [] => []
  | (k, h) :: hs => (k.renumbered n, h.renumbered n) :: renumberedEntries n hs

end

variable {n k : Nat}

mutual

theorem renumbered_of_below : (h : HostValue) → (∀ v ∈ h.values, Below n v) → h.renumbered n = h
  | none, _ | bool _, _ | int _, _ | float _, _ | string _, _ => rfl
  | sequence elements, hb => congrArg sequence (renumberedAll_of_below elements hb)
  | mapping entries, hb => congrArg mapping (renumberedEntries_of_below entries hb)
  | opaqueValue v, hb => congrArg opaqueValue (hb v (List.mem_singleton_self v)).fixed

theorem renumberedAll_of_below : (hs : List HostValue) → (∀ v ∈ valuesOf hs, Below n v) →
    renumberedAll n hs = hs
  | [], _ => rfl
  | h :: hs, hb => by
    obtain ⟨hh, hhs⟩ := List.forall_mem_append.mp hb
    rw [renumberedAll, renumbered_of_below h hh, renumberedAll_of_below hs hhs]

theorem renumberedEntries_of_below : (hs : List (HostValue × HostValue)) →
    (∀ v ∈ valuesOfEntries hs, Below n v) → renumberedEntries n hs = hs
  | [], _ => rfl
  | (k, h) :: hs, hb => by
    obtain ⟨hk, hrest⟩ := List.forall_mem_append.mp hb
    obtain ⟨hh, hhs⟩ := List.forall_mem_append.mp hrest
    rw [renumberedEntries, renumbered_of_below k hk, renumbered_of_below h hh,
      renumberedEntries_of_below hs hhs]

end

instance : Carries HostValue where
  renumber := renumbered
  Below k h := ∀ v ∈ h.values, Below k v
  mono h hjk v hv := (h v hv).mono hjk
  fixed {_ h} hb := renumbered_of_below h hb

theorem renumberedAll_eq (hs : List HostValue) : renumberedAll n hs = renumber n hs := by
  induction hs with
  | nil => rfl
  | cons h hs ih =>
    rw [renumberedAll, ih]
    rfl

theorem renumberedEntries_eq (hs : List (HostValue × HostValue)) :
    renumberedEntries n hs = renumber n hs := by
  induction hs with
  | nil => rfl
  | cons e hs ih =>
    rw [renumberedEntries, ih]
    rfl

/-- The host sees the same values, with their new numbers. -/
theorem ofValueAt_renumber {s t : Store} (hst : s.Renumbered n t) (depth : Nat) (v : Value) :
    ofValueAt t depth (renumber n v) = renumber n (ofValueAt s depth v) := by
  induction depth generalizing v with
  | zero => cases v <;> rfl
  | succ depth ih =>
    cases v with
    | list id =>
      change sequence ((t.list id).toList.map (ofValueAt t depth)) =
        sequence (renumberedAll n ((s.list id).toList.map (ofValueAt s depth)))
      rw [hst.list, renumber_array, Array.toList_map, List.map_map, renumberedAll_eq, renumber_list,
        List.map_map]
      exact congrArg sequence (List.map_congr_left fun w _ => ih w)
    | dict id =>
      change mapping ((t.dict id).toList.map fun e =>
          (ofValueAt t depth e.1.toValue, ofValueAt t depth e.2)) =
        mapping (renumberedEntries n ((s.dict id).toList.map fun e =>
          (ofValueAt s depth e.1.toValue, ofValueAt s depth e.2)))
      rw [hst.dict, Table.toList_renumber, List.map_map, renumberedEntries_eq, renumber_list,
        List.map_map]
      refine congrArg mapping (List.map_congr_left fun e _ => Prod.ext ?_ (ih e.2))
      have hkey := ih e.1.toValue
      rwa [Key.toValue_renumber] at hkey
    | _ => rfl

theorem ofValue_renumber {s t : Store} (hst : s.Renumbered n t) (v : Value) :
    ofValue t (renumber n v) = renumber n (ofValue s v) := by
  rw [ofValue, hst.containers]
  exact ofValueAt_renumber hst _ v

/-- The host sees only values whose functions were made. -/
theorem below_ofValueAt {s : Store} (hs : s.Closed) (depth : Nat) {v : Value}
    (hv : Below s.functions.size v) : Below s.functions.size (ofValueAt s depth v) := by
  induction depth generalizing v with
  | zero =>
    cases v with
    | null | bool | int | float | str => exact fun _ hw => by cases hw
    | _ => exact fun _ hw => by rwa [List.mem_singleton.mp hw]
  | succ depth ih =>
    cases v with
    | list id =>
      intro w hw
      simp only [ofValueAt, values, valuesOf_eq, List.mem_flatMap, List.mem_map] at hw
      obtain ⟨_, ⟨v, hmem, rfl⟩, hw⟩ := hw
      exact ih (hs.list id v (Array.mem_toList_iff.mp hmem)) w hw
    | dict id =>
      intro w hw
      simp only [ofValueAt, values, valuesOfEntries_eq, List.mem_flatMap, List.mem_map] at hw
      obtain ⟨_, ⟨e, hmem, rfl⟩, hw⟩ := hw
      rcases List.mem_append.mp hw with hw | hw
      · exact ih (Key.below_toValue _ e.1) w hw
      · exact ih (hs.dict id e (Array.mem_toList_iff.mp hmem)) w hw
    | null | bool | int | float | str => exact fun _ hw => by cases hw
    | _ => exact fun _ hw => by rwa [List.mem_singleton.mp hw]

mutual

/-- What the host gives back is the same value, if the functions in it were made. -/
theorem renumbers_toValue (k : Nat) : (h : HostValue) → (∀ v ∈ h.values, Below k v) →
    Tries n k h.toValue (h.renumbered n).toValue
  | none, _ | bool _, _ | int _, _ | float _, _ | string _, _ => .pure rfl trivial
  | sequence elements, hb =>
    .bind (renumbers_toValues k elements hb) fun _ vs _ hvs => by
      rw [renumber_toArray]
      exact .action (acts_newList (below_toArray hvs))
  | mapping entries, hb => by
    have htable := renumbers_toTable k .empty entries hb
    rw [Table.empty_renumber] at htable
    exact .bind htable fun _ _ _ ht => .action (acts_newDict ht)
  | opaqueValue v, hb => .pure rfl (hb v (List.mem_singleton_self v))

theorem renumbers_toValues (k : Nat) : (hs : List HostValue) → (∀ v ∈ valuesOf hs, Below k v) →
    Tries n k (toValues hs) (toValues (renumberedAll n hs))
  | [], _ => .pure rfl nofun
  | h :: hs, hb => by
    obtain ⟨hh, hhs⟩ := List.forall_mem_append.mp hb
    refine .bind (renumbers_toValue k h hh) fun j v hj hv => ?_
    refine .bind (renumbers_toValues j hs fun w hw => (hhs w hw).mono hj) fun i vs hi hvs => ?_
    exact .pure rfl (below_cons (hv.mono hi) hvs)

theorem renumbers_toTable (k : Nat) {table : Table Key Value} (ht : Below k table) :
    (hs : List (HostValue × HostValue)) → (∀ v ∈ valuesOfEntries hs, Below k v) →
      Tries n k (toTable table hs) (toTable (renumber n table) (renumberedEntries n hs))
  | [], _ => .pure rfl ht
  | (key, h) :: hs, hb => by
    obtain ⟨hkey, hrest⟩ := List.forall_mem_append.mp hb
    obtain ⟨hh, hhs⟩ := List.forall_mem_append.mp hrest
    refine .bind (renumbers_toValue k key hkey) fun j key hj _ => ?_
    refine .andThen (tries_key key) fun i key hi => ?_
    refine .bind (renumbers_toValue i h fun w hw => (hh w hw).mono (hj.trans hi))
      fun l v hl hv => ?_
    rw [← Table.put_renumber]
    have hkl := hj.trans (hi.trans hl)
    exact renumbers_toTable l (Table.All.put (ht.mono hkl) hv) hs fun w hw => (hhs w hw).mono hkl

end

end Rill.HostValue
