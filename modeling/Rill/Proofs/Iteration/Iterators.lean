import Mathlib.Algebra.Group.Nat.Defs
import Rill.Proofs.Iteration.Methods

/-! Iterators over the elements that a value has when iteration begins. -/
namespace Rill

open Text (Span)
open Eval Veil

variable {s t : Store} {it own position : Nat} {xs : Array Value}

namespace Store

/-- The elements over which a value iterates: those of a list, the keys of a dict in the order of its
entries, and the characters of a text, each as a text of one character. -/
def elements? (s : Store) : Value → Option (Array Value)
  | .list id => some (s.list id)
  | .dict id => some ((s.dict id).entries.map (·.1.toValue))
  | .str text => some (text.toList.map fun c => .str (String.singleton c)).toArray
  | _ => none

/-- The store with a new iterator over some elements, which has a list of them for itself. -/
def withIterator (s : Store) (xs : Array Value) : Store :=
  { s with
    lists := s.lists.push xs
    instances := s.instances.push ⟨BuiltinClass.listIterator.number,
      Table.ofList [("__items__", .list s.lists.size), ("__index__", .int 0)]⟩ }

/-- The store after an iterator has handed out the element at a position. -/
def advanced (s : Store) (it position : Nat) : Store :=
  { s with
    instances := s.instances.modify it fun o =>
      { o with fields := o.fields.put "__index__" (.int (Int64.ofNat position + 1)) }
    items := s.items + 1 }

/-- What a call of `next` gives at a position among some elements, and the store after it. -/
def nextAt (s : Store) (it : Nat) (xs : Array Value) (position : Nat) : Value × Store :=
  match xs[position]? with
  | some x => (.item s.items x, s.advanced it position)
  | none => (.null, s)

theorem nextAt_of_lt (h : position < xs.size) :
    s.nextAt it xs position = (.item s.items xs[position], s.advanced it position) := by
  simp [nextAt, h]

theorem nextAt_of_le (h : xs.size ≤ position) : s.nextAt it xs position = (.null, s) := by
  simp [nextAt, h]

/-- An iterator stands at a position among some elements, which are those of a list of its own. -/
structure StandsAt (s : Store) (it own : Nat) (xs : Array Value) (position : Nat) : Prop where
  lt : it < s.instances.size
  type : s.typeOf it = BuiltinClass.listIterator.number
  next : s.field? it "next" = none
  items : s.field? it "__items__" = some (.list own)
  index : s.field? it "__index__" = some (.int (Int64.ofNat position))
  elements : s.lists[own]? = some xs
  le : position ≤ xs.size

theorem StandsAt.list (h : s.StandsAt it own xs position) : s.list own = xs := by
  rw [Store.list, h.elements]
  rfl

/-- A new iterator stands before the first element. -/
theorem withIterator_standsAt (s : Store) (xs : Array Value) :
    (s.withIterator xs).StandsAt s.instances.size s.lists.size xs 0 := by
  have hobject : (s.withIterator xs).instances[s.instances.size]? =
      some ⟨BuiltinClass.listIterator.number,
        Table.ofList [("__items__", .list s.lists.size), ("__index__", .int 0)]⟩ :=
    Array.getElem?_push_size
  have hfield (name : String) : (s.withIterator xs).field? s.instances.size name =
      ((Table.empty.put "__items__" (.list s.lists.size)).put "__index__" (.int 0)).get? name := by
    rw [field?, hobject]
    rfl
  constructor
  · simp [withIterator]
  · rw [typeOf, hobject]
    rfl
  · have hitems : "__items__" ≠ "next" := by decide
    have hindex : "__index__" ≠ "next" := by decide
    rw [hfield, Table.get?_put_of_ne _ hindex, Table.get?_put_of_ne _ hitems]
    rfl
  · have hindex : "__index__" ≠ "__items__" := by decide
    rw [hfield, Table.get?_put_of_ne _ hindex, Table.get?_put_self]
  · rw [hfield, Table.get?_put_self]
    rfl
  · exact Array.getElem?_push_size
  · exact Nat.zero_le _

/-- An iterator that has handed out an element stands before the one after it. -/
theorem StandsAt.advanced (h : s.StandsAt it own xs position) (hlt : position < xs.size) :
    (s.advanced it position).StandsAt it own xs (position + 1) := by
  have hne {name : String} (hname : "__index__" ≠ name) :
      (s.advanced it position).field? it name = s.field? it name :=
    field?_put_of_ne (fun _ => hname) (.int (Int64.ofNat position + 1))
  constructor
  · simpa [Store.advanced] using h.lt
  · have hpersists := Persists.field s it "__index__" (.int (Int64.ofNat position + 1))
    exact (hpersists.typeOf h.lt).trans h.type
  · exact (hne (by decide)).trans h.next
  · exact (hne (by decide)).trans h.items
  · rw [Int64.ofNat_add]
    exact field?_put_self h.lt "__index__" (.int (Int64.ofNat position + 1))
  · exact h.elements
  · exact hlt

end Store

theorem resolveIndex_ofNat {length : Nat} (h : position < length) (hsize : length < 2 ^ 63) :
    Store.resolveIndex (Int64.ofNat position) length = .ok position := by
  have hint : (Int64.ofNat position).toInt = position :=
    Int64.toInt_ofNat_of_lt (Nat.lt_trans h hsize)
  rw [Store.resolveIndex_eq_ok_iff, hint]
  exact ⟨by omega, by omega, (if_pos (Int.natCast_nonneg position)).symm⟩

namespace Evaluator

variable {m : Machine}

/-- An iterator hands out the element at its position. -/
theorem iteratorNext_of_lt (h : m.store.StandsAt it own xs position) (hlt : position < xs.size)
    (hsize : xs.size < 2 ^ 63) (span : Span) :
    iteratorNext it span m =
      .ok (.item m.store.items xs[position]) { m with store := m.store.advanced it position } := by
  have hint : (Int64.ofNat position).toInt = position :=
    Int64.toInt_ofNat_of_lt (Nat.lt_trans hlt hsize)
  have hmore : ¬((m.store.list own).size : Int) ≤ (Int64.ofNat position).toInt := by
    rw [h.list, hint]
    omega
  have hget : Store.listGet own (Int64.ofNat position) m.store = .ok xs[position] m.store := by
    have hlist := h.list
    subst hlist
    exact Store.listGet_of_resolved hlt (resolveIndex_ofNat hlt hsize)
  have hstore : store m = .ok m.store m := rfl
  unfold iteratorNext
  rw [bind_of_ok hstore, h.items, h.index]
  dsimp only
  rw [if_neg hmore, bind_of_ok (attempt_of_ok hget span)]
  rfl

/-- Past the last element it hands out nothing. -/
theorem iteratorNext_of_eq (h : m.store.StandsAt it own xs xs.size) (hsize : xs.size < 2 ^ 63)
    (span : Span) : iteratorNext it span m = .ok .null m := by
  have hint : (Int64.ofNat xs.size).toInt = xs.size := Int64.toInt_ofNat_of_lt hsize
  have hend : ((m.store.list own).size : Int) ≤ (Int64.ofNat xs.size).toInt := by
    rw [h.list, hint]
  have hstore : store m = .ok m.store m := rfl
  unfold iteratorNext
  rw [bind_of_ok hstore, h.items, h.index]
  dsimp only
  rw [if_pos hend]
  rfl

theorem iteratorNext_eq (h : m.store.StandsAt it own xs position) (hsize : xs.size < 2 ^ 63)
    (span : Span) :
    iteratorNext it span m = .ok (m.store.nextAt it xs position).1
      { m with store := (m.store.nextAt it xs position).2 } := by
  rcases Nat.lt_or_eq_of_le h.le with hlt | rfl
  · rw [iteratorNext_of_lt h hlt hsize, Store.nextAt_of_lt hlt]
  · rw [iteratorNext_of_eq h hsize, Store.nextAt_of_le le_rfl]

variable {settings : Settings} {V : Veil}

/-- The elements of a text are those that its method `iter` hands out. -/
theorem characters_eq (text : String) :
    characters text = (text.toList.map fun c => .str (String.singleton c)).toArray := rfl

/-- Over what a value iterates is what a method of its class makes an iterator of. -/
theorem exists_iter_method {s : Store} {v : Value} (h : s.elements? v = some xs) :
    ∃ (c : BuiltinClass) (b : Builtin), classOf? s v = some c.number ∧ (∀ id, v ≠ .object id) ∧
      (Session.builtinClass c).attributes.get? "iter" = some (.native (.builtin b)) ∧
      b.arity.accepts [v].length = true ∧ ∀ (ev : Evaluator) (span : Span) (m : Machine),
        m.store = s → ev.builtin b [v] span m = newIterator xs m := by
  cases v with
  | list id =>
    cases h
    refine ⟨.list, .list .iter, rfl, nofun, by decide +kernel, rfl, ?_⟩
    rintro ev span m rfl
    rfl
  | dict id =>
    cases h
    refine ⟨.dict, .dict .iter, rfl, nofun, by decide +kernel, rfl, ?_⟩
    rintro ev span m rfl
    rfl
  | str text =>
    cases h
    refine ⟨.string, .string .iter, rfl, nofun, by decide +kernel, rfl, ?_⟩
    rintro ev span m rfl
    rw [← characters_eq]
    rfl
  | _ => cases h

/-- A call that leaves another store leaves nothing else. -/
theorem inCall_of_store {α : Type} {x : Eval α} {a : α} {u : Store} {frame : CallFrame}
    (h : x { m with calls := m.calls.push frame } =
      .ok a { m with store := u, calls := m.calls.push frame }) :
    inCall frame x m = .ok a { m with store := u } := by
  have hrun := inCall_of_ok h
  rwa [Array.pop_push] at hrun

/-- To iterate over a value is to make an iterator over the elements that it has now. -/
theorem iterate_eq (hm : m.store.Sound V) {v : Value} (hv : m.store.elements? v = some xs)
    (hdepth : m.calls.size < settings.maxCallDepth) (span : Span) (fuel : Nat) :
    (ofFuel settings (fuel + 1)).iterate v span m =
      .ok (.object m.store.instances.size) { m with store := m.store.withIterator xs } := by
  obtain ⟨c, b, hclass, hne, hb, haccepts, hiter⟩ := exists_iter_method hv
  have hown : ∀ id, v = .object id → m.store.field? id "iter" = none :=
    fun id hid => absurd hid (hne id)
  have hcall : (ofFuel settings (fuel + 1)).callMethod v "iter" [] span m =
      inCall ⟨b.name, span⟩ ((ofFuel settings fuel).builtin b [v] span) m :=
    callMethod_builtin hm hclass hown hb haccepts hdepth span
  rw [iterate, hcall]
  apply inCall_of_store
  rw [hiter _ span { m with calls := m.calls.push ⟨b.name, span⟩ } rfl]
  rfl

/-- So does the function `iter`, by one more call. -/
theorem call_iter (hm : m.store.Sound V) {v : Value} (hv : m.store.elements? v = some xs)
    (hdepth : m.calls.size + 1 < settings.maxCallDepth) (span : Span) (fuel : Nat) :
    (ofFuel settings (fuel + 2)).call (.native (.builtin (.global .iter))) [v] span m =
      .ok (.object m.store.instances.size) { m with store := m.store.withIterator xs } := by
  have hiterate := iterate_eq (m := { m with calls := m.calls.push ⟨"iter", span⟩ }) hm hv
    (by simpa using hdepth) span fuel
  rw [call_builtin rfl rfl (Nat.lt_of_succ_lt hdepth)]
  exact inCall_of_store hiterate

/-- It is a stack overflow if that would be one call too many. -/
theorem iterate_overflow (hm : m.store.Sound V) {v : Value} (hv : m.store.elements? v = some xs)
    (hdepth : settings.maxCallDepth ≤ m.calls.size) (span : Span) (fuel : Nat) :
    Overflows settings.maxCallDepth ((ofFuel settings (fuel + 1)).iterate v span m) := by
  obtain ⟨c, b, hclass, hne, hb, -, -⟩ := exists_iter_method hv
  have hown : ∀ id, v = .object id → m.store.field? id "iter" = none :=
    fun id hid => absurd hid (hne id)
  exact callMethod_overflow hm hclass hown hb hdepth [] span

/-- To call the method `next` of an iterator is to advance it. -/
theorem callMethod_next (hm : m.store.Sound V) (h : m.store.StandsAt it own xs position)
    (hdepth : m.calls.size < settings.maxCallDepth) (hsize : xs.size < 2 ^ 63) (span : Span)
    (fuel : Nat) :
    (ofFuel settings (fuel + 1)).callMethod (.object it) "next" [] span m =
      .ok (m.store.nextAt it xs position).1
        { m with store := (m.store.nextAt it xs position).2 } := by
  have hclass : classOf? m.store (.object it) = some BuiltinClass.listIterator.number :=
    congrArg some h.type
  have hown : ∀ id, Value.object it = .object id → m.store.field? id "next" = none := by
    rintro _ ⟨⟩
    exact h.next
  have hb : (Session.builtinClass .listIterator).attributes.get? "next" =
      some (.native (.builtin (.iterator .next))) := by
    decide +kernel
  rw [callMethod_builtin hm hclass hown hb rfl hdepth]
  apply inCall_of_store
  exact iteratorNext_eq (m := { m with calls := m.calls.push ⟨_, span⟩ }) h hsize span

/-- So does the function `next`, by one more call. -/
theorem call_next (hm : m.store.Sound V) (h : m.store.StandsAt it own xs position)
    (hdepth : m.calls.size + 1 < settings.maxCallDepth) (hsize : xs.size < 2 ^ 63) (span : Span)
    (fuel : Nat) :
    (ofFuel settings (fuel + 2)).call (.native (.builtin (.global .next))) [.object it] span m =
      .ok (m.store.nextAt it xs position).1
        { m with store := (m.store.nextAt it xs position).2 } := by
  have hmethod := callMethod_next (m := { m with calls := m.calls.push ⟨"next", span⟩ }) hm h
    (by simpa using hdepth) hsize span fuel
  rw [call_builtin rfl rfl (Nat.lt_of_succ_lt hdepth)]
  exact inCall_of_store hmethod

theorem advance_of_lt (hm : m.store.Sound V) (h : m.store.StandsAt it own xs position)
    (hdepth : m.calls.size < settings.maxCallDepth) (hlt : position < xs.size)
    (hsize : xs.size < 2 ^ 63) (span : Span) (fuel : Nat) :
    (ofFuel settings (fuel + 1)).advance (.object it) span m =
      .ok (some xs[position]) { m with store := m.store.advanced it position } := by
  unfold advance
  rw [bind_of_ok (callMethod_next hm h hdepth hsize span fuel), Store.nextAt_of_lt hlt]
  rfl

theorem advance_of_eq (hm : m.store.Sound V) (h : m.store.StandsAt it own xs xs.size)
    (hdepth : m.calls.size < settings.maxCallDepth) (hsize : xs.size < 2 ^ 63) (span : Span)
    (fuel : Nat) : (ofFuel settings (fuel + 1)).advance (.object it) span m = .ok none m := by
  unfold advance
  rw [bind_of_ok (callMethod_next hm h hdepth hsize span fuel), Store.nextAt_of_le le_rfl]
  rfl

end Evaluator
end Rill
