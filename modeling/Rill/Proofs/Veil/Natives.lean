import Rill.Eval.Call
import Rill.Proofs.Veil.Operations

/-! Built-in functions and those of an honest host keep to a veil. -/
namespace Rill

open Text (Span)
open Eval Veil

variable {V : Veil} {s : Store}

namespace Store

theorem listGet_of_resolved {s : Store} {id position : Nat} {index : Int64}
    (hlt : position < (s.list id).size) (hr : resolveIndex index (s.list id).size = .ok position) :
    listGet id index s = .ok (s.list id)[position] s :=
  (at_resolved hr).trans (elementAt_eq hlt)

/-- Getting an element changes nothing. -/
theorem listGet_cases (s : Store) (id : Nat) (index : Int64) :
    (∃ position, ∃ h : position < (s.list id).size,
      listGet id index s = .ok (s.list id)[position] s) ∨
    ∃ fault, listGet id index s = .error (.fault fault) s := by
  cases hr : resolveIndex index (s.list id).size with
  | error fault => exact .inr ⟨fault, of_not_resolved hr⟩
  | ok position =>
    have hlt : position < (s.list id).size := resolveIndex_lt hr
    exact .inl ⟨position, hlt, listGet_of_resolved hlt hr⟩

end Store

namespace Evaluator

/-- Whether `raise` raises a value, and does not refuse it. -/
def raisable (s : Store) : Value → Bool
  | .str _ => true
  | .object id => s.derivesFrom (s.typeOf id) BuiltinClass.exception.number
  | _ => false

/-- The native function that a call of a value is a call of, with all its arguments. -/
def nativeCall? : Value → List Value → Option (Native × List Value)
  | .native f, arguments => some (f, arguments)
  | .bound f receiver, arguments => some (f, receiver :: arguments)
  | _, _ => none

theorem dispatch_builtin {callee : Value} {arguments : List Value} {b : Builtin} {all : List Value}
    (h : nativeCall? callee arguments = some (.builtin b, all))
    (haccepts : b.arity.accepts all.length = true) (ev : Evaluator) (span : Span) :
    ev.dispatch callee arguments span = ev.builtin b all span := by
  have hnative {receiver : Option Value} (hall : receiver.toList ++ arguments = all) :
      ev.native (.builtin b) receiver arguments span = ev.builtin b all span := by
    unfold native
    rw [hall]
    exact if_pos haccepts
  cases callee with
  | native f =>
    cases h
    exact hnative rfl
  | bound f receiver =>
    cases h
    exact hnative rfl
  | _ => cases h

end Evaluator

/-- A native function may be called: if it raises its argument, then the program may raise
exceptions of its own, and if it advances an iterator, then not one that is to be still. -/
structure Veil.Permits (V : Veil) (s : Store) (f : Native) (arguments : List Value) : Prop where
  raise : f = .builtin (.global .raise) → ∀ v, arguments.head? = some v →
    Evaluator.raisable s v = true → V.raises
  next : f = .builtin (.iterator .next) → ∀ id, arguments.head? = some (.object id) → id ∉ V.still

namespace Evaluator

theorem argument_runs {arguments : List Value} (h : ∀ v ∈ arguments, v.Known V s) (position : Nat) :
    V.Runs s (Value.Known V) (argument arguments position) := by
  unfold argument
  split
  · next v hv => exact .value (h v (List.mem_of_getElem? hv))
  · exact .defect

theorem invalidReceiver_runs {α : Type} {Q : Store → α → Prop} (expected : String)
    (actual : Option Value) (span : Span) : V.Runs s Q (invalidReceiver expected actual span) :=
  .bind .store fun _ _ _ _ _ => .invalid _ span

theorem thisList_runs {arguments : List Value} (h : ∀ v ∈ arguments, v.Known V s) (span : Span) :
    V.Runs s (fun t id => Value.Known V t (.list id)) (thisList arguments span) := by
  unfold thisList
  split
  · next id hid => exact .pure fun t hst => (h _ (List.mem_of_head? hid)).mono hst
  · exact invalidReceiver_runs _ _ span

theorem thisDict_runs (arguments : List Value) (span : Span) :
    V.Runs s Any (thisDict arguments span) := by
  unfold thisDict
  split
  · exact .done _
  · exact invalidReceiver_runs _ _ span

theorem thisString_runs (arguments : List Value) (span : Span) :
    V.Runs s Any (thisString arguments span) := by
  unfold thisString
  split
  · exact .done _
  · exact invalidReceiver_runs _ _ span

theorem thisInstance_runs {arguments : List Value} (h : ∀ v ∈ arguments, v.Known V s)
    (span : Span) :
    V.Runs s (fun t id => Value.Known V t (.object id) ∧ arguments.head? = some (.object id))
      (thisInstance arguments span) := by
  unfold thisInstance
  split
  · next id hid => exact .pure fun t hst => ⟨(h _ (List.mem_of_head? hid)).mono hst, hid⟩
  · exact invalidReceiver_runs _ _ span

theorem newIterator_runs {elements : Array Value}
    (h : ∀ v ∈ elements, v.Known V s) : V.Runs s (Value.Known V) (newIterator elements) := by
  refine .bind (.action (acts_newList h)) fun t items _ ht hitems => ?_
  have hfields : (Table.ofList [("__items__", items), ("__index__", Value.int 0)]).All
      fun _ v => v.Known V t := by
    apply Table.All.ofList
    simp [hitems, Value.Known]
  exact .bind (.action (acts_newInstance hfields (ht.builtin_lt .listIterator)))
    fun _ _ _ _ hid => .value hid.1

theorem rangeOf_runs (start stop step : Int64) (span : Span) :
    V.Runs s (Value.Known V) (rangeOf start stop step span) := by
  unfold rangeOf
  split
  · exact .invalid _ span
  split
  · exact .defect
  split
  · exact .raise _ span
  split
  · exact .defect
  · refine .action (acts_newList fun v hv => ?_)
    obtain ⟨k, -, rfl⟩ := Array.mem_map.mp hv
    trivial

theorem range_runs (arguments : List Value) (span : Span) :
    V.Runs s (Value.Known V) (range arguments span) := by
  refine .bind (.mapM fun v _ _ _ _ => intArgument_runs v _ span) fun _ bounds _ _ _ => ?_
  split
  · exact rangeOf_runs _ _ _ span
  · exact rangeOf_runs _ _ _ span
  · exact rangeOf_runs _ _ _ span
  · exact .defect

theorem isInstance_runs (v type : Value) (span : Span) :
    V.Runs s (Value.Known V) (isInstance v type span) := by
  refine .bind .store fun _ _ _ _ _ => ?_
  split
  · exact .value trivial
  · exact .invalid _ span

theorem toInt_runs (v : Value) (span : Span) : V.Runs s (Value.Known V) (toInt v span) := by
  have hno {t : Store} : V.Runs t (Value.Known V) (toInt.unconvertible v span) :=
    .bind .store fun _ _ _ _ _ => .invalid _ span
  unfold toInt
  split
  · exact .value trivial
  · exact .value trivial
  · split
    · exact .value trivial
    · exact hno
  · split
    · exact .value trivial
    · exact .bind .store fun _ _ _ _ _ => .invalid _ span
  · exact hno

theorem toFloat_runs (v : Value) (span : Span) : V.Runs s (Value.Known V) (toFloat v span) := by
  unfold toFloat
  split
  · exact .value trivial
  · exact .value trivial
  · exact .value trivial
  · split
    · exact .value trivial
    · exact .bind .store fun _ _ _ _ _ => .invalid _ span
  · exact .bind .store fun _ _ _ _ _ => .invalid _ span

theorem exit_runs (arguments : List Value) (span : Span) :
    V.Runs s (Value.Known V) (exit arguments span) := by
  have hcode {t : Store} (code : Int64) : V.Runs t (Value.Known V)
      (if Int32.minValue.toInt ≤ code.toInt ∧ code.toInt ≤ Int32.maxValue.toInt then
          throw (.exit code.toInt)
        else invalid ("Exit code " ++ toString code.toInt ++ " is out of range.") span) := by
    split
    · exact .throw nofun
    · exact .invalid _ span
  unfold exit
  split
  · exact .bind (.done 0) fun _ code _ _ _ => hcode code
  · exact .bind (intArgument_runs _ _ span) fun _ code _ _ _ => hcode code

theorem split_runs (text : String) (separator : Value) (span : Span) :
    V.Runs s (Value.Known V) (split text separator span) := by
  have hlist (t : Store) (parts : List String) : V.Runs t (Value.Known V)
      (liftM (Store.newList (parts.map Value.str).toArray)) := by
    refine .action (acts_newList fun v hv => ?_)
    obtain ⟨part, -, rfl⟩ := List.mem_map.mp (List.mem_toArray.mp hv)
    trivial
  unfold split
  split
  · exact .bind (.done _) fun t parts _ _ _ => hlist t parts
  · split
    · exact .bind (.invalid (Q := Any) _ span) fun t parts _ _ _ => hlist t parts
    · exact .bind (.done _) fun t parts _ _ _ => hlist t parts
  · exact .bind .store fun _ _ _ _ _ => .bind (.invalid (Q := Any) _ span) fun t parts _ _ _ =>
      hlist t parts

/-- An iterator is advanced by one, or not at all. -/
theorem iteratorNext_runs {this : Nat} (hthis : Value.Known V s (.object this))
    (hstill : this ∉ V.still) (span : Span) :
    V.Runs s (Value.Known V) (iteratorNext this span) := by
  intro m hsm hm
  have hstore : store m = .ok m.store m := rfl
  unfold iteratorNext
  -- from here on the store is the one that was looked at
  refine RunsAt.after (.refl m) ?_ (bind_of_ok hstore)
  split
  · next items index hitems hindex =>
    by_cases hend : (m.store.list items).size ≤ index.toInt
    · rw [if_pos hend]
      exact .ofOk rfl (.refl m) trivial
    rw [if_neg hend]
    rcases m.store.listGet_cases items index with ⟨position, hlt, hget⟩ | ⟨fault, hget⟩
    · have hmove := Store.Move.advance this items index hitems hindex (Int.not_le.mp hend) hthis.2
        hstill
      have helement := hm.list _ (Array.getElem_mem hlt)
      refine .ofOk (bind_of_ok (attempt_of_ok hget span)) ⟨.single hmove, rfl⟩ ?_
      exact Value.Known.of_le helement le_rfl le_rfl (by simp)
    · have hattempt := Runs.attempt (tries_listGet items index) span m hsm hm
      obtain ⟨t, e, -, -, -, hraise⟩ := exists_raise (α := Value) fault span m
      have hrun := (attempt_of_fault hget span).trans hraise
      obtain ⟨hfollows, hproper⟩ := hattempt.of_error hrun
      exact .ofError (bind_of_error hrun) hfollows hproper
  · have hinvalid : V.Runs m.store (Value.Known V)
      (invalidReceiver "list iterator" (some (.object this)) span) := invalidReceiver_runs _ _ span
    exact hinvalid.now hm

theorem dictMethod_runs (f : DictMethod) {arguments : List Value}
    (ha : ∀ v ∈ arguments, v.Known V s) (span : Span) :
    V.Runs s (Value.Known V) (dictMethod f arguments span) := by
  refine .bind (thisDict_runs arguments span) fun t this hst _ _ => ?_
  have ha : ∀ v ∈ arguments, v.Known V t := Value.Known.all_mono ha hst
  cases f with
  | get =>
    refine .bind (argument_runs ha 1) fun u key htu _ _ => ?_
    split
    · next fallback hfallback =>
      have hknown : fallback.Known V t := ha _ (List.mem_of_getElem? hfallback)
      refine .bind (.attempt (tries_dictGet? this key) span) fun w found huw _ hfound => ?_
      cases found with
      | none => exact .value (hknown.mono (htu.trans huw))
      | some v => exact .value (hfound v rfl)
    · exact .attempt (tries_dictGet this key) span
  | set =>
    refine .bind (argument_runs ha 1) fun u key htu _ _ => ?_
    refine .bind (argument_runs (Value.Known.all_mono ha htu) 2) fun _ v _ _ hv => ?_
    exact .bind (.attempt (tries_dictSet hv this key) span) fun _ _ _ _ _ => .value trivial
  | length => exact .bind .store fun _ _ _ _ _ => .value trivial
  | remove =>
    exact .bind (argument_runs ha 1) fun _ key _ _ _ => .attempt (tries_dictRemove this key) span
  | contains =>
    exact .bind (argument_runs ha 1) fun _ key _ _ _ =>
      .bind (.attempt (tries_dictContains this key) span) fun _ _ _ _ _ => .value trivial
  | keys => exact .bind (.action (acts_dictKeys this)) fun _ _ _ _ hk => .action (acts_newList hk)
  | values =>
    exact .bind (.action (acts_dictValues this)) fun _ _ _ _ hv => .action (acts_newList hv)
  | iter => exact .bind (.action (acts_dictKeys this)) fun _ _ _ _ hk => newIterator_runs hk

theorem stringMethod_runs (f : StringMethod) (arguments : List Value) (span : Span) :
    V.Runs s (Value.Known V) (stringMethod f arguments span) := by
  refine .bind (thisString_runs arguments span) fun _ this _ _ _ => ?_
  cases f with
  | length | upper | lower => exact .value trivial
  | split => exact split_runs this _ span
  | iter =>
    refine newIterator_runs fun v hv => ?_
    obtain ⟨c, -, rfl⟩ := List.mem_map.mp (List.mem_toArray.mp hv)
    trivial

/-- An iterator that is to be still is not to be advanced. -/
theorem iteratorMethod_runs (f : IteratorMethod) {arguments : List Value}
    (ha : ∀ v ∈ arguments, v.Known V s)
    (hstill : f = .next → ∀ id, arguments.head? = some (.object id) → id ∉ V.still) (span : Span) :
    V.Runs s (Value.Known V) (iteratorMethod f arguments span) := by
  refine .bind (thisInstance_runs ha span) fun _ this _ _ hthis => ?_
  cases f with
  | next => exact iteratorNext_runs hthis.1 (hstill rfl this hthis.2) span
  | iter => exact .value hthis.1

theorem acts_onStore {f : HostFunction} (arguments : List HostValue) :
    V.Acts s (fun _ result => ∃ t handles, result = (f.run arguments t handles).1)
      (f.run arguments).onStore :=
  .ofMove (fun t _ _ => .handles (f.run arguments t t.handles).2) fun t _ _ => ⟨t, t.handles, rfl⟩

variable {ev : Evaluator} (h : V.Governs ev)

include h

theorem print_runs {arguments : List Value} (ha : ∀ v ∈ arguments, v.Known V s) (span : Span) :
    V.Runs s (Value.Known V) (ev.print arguments span) :=
  .bind (.mapM fun v hv _ hst ht => text_runs h ht ((ha v hv).mono hst) false span)
    fun _ _ _ _ _ => .bind (.print _) fun _ _ _ _ _ => .value trivial

/-- An exception of the program itself is raised only if it may be. -/
theorem raiseValue_runsAt {m : Machine} (hm : m.store.Sound V) {v : Value}
    (hv : v.Known V m.store) (hV : raisable m.store v = true → V.raises) (span : Span) :
    V.RunsAt m (Value.Known V) (ev.raiseValue v span) := by
  have hstore : store m = .ok m.store m := rfl
  have hrefuse (s : Store) : V.RunsAt m (Value.Known V) (raiseValue.refuse v span s) := by
    have hinvalid : V.Runs m.store (Value.Known V) (raiseValue.refuse v span s) := .invalid _ span
    exact hinvalid.now hm
  refine RunsAt.after (.refl m) ?_ (bind_of_ok hstore)
  cases v with
  | str message =>
    have hfields : (Table.ofList [("message", Value.str message)]).All
        fun _ v => v.Known V m.store := by
      apply Table.All.ofList
      simp [Value.Known]
    have hmake := Runs.action (acts_newInstance hfields (hm.builtin_lt .exception))
    refine (hmake.now hm).bind hm fun t id _ ht hid => ?_
    refine raiseInstance_runs h ht hid.1 ?_ (hV rfl) span
    rw [hid.2, Store.derivesFrom, if_pos rfl]
  | object id =>
    dsimp only
    split
    · next hderives =>
      exact (raiseInstance_runs h hm hv hderives (hV hderives) span).now hm
    · exact hrefuse _
  | _ => exact hrefuse _

theorem containsEqual_runs {v : Value} (hv : v.Known V s) {xs : List Value}
    (hxs : ∀ x ∈ xs, x.Known V s) (span : Span) : V.Runs s Any (ev.containsEqual v span xs) := by
  induction xs generalizing s with
  | nil => exact .done _
  | cons x xs ih =>
    obtain ⟨hx, hxs⟩ := List.forall_mem_cons.mp hxs
    refine .bind (equal_runs h hx hv span) fun _ found hst _ _ => ?_
    split
    · exact .done _
    · exact ih (hv.mono hst) (Value.Known.all_mono hxs hst)

theorem mapCalls_runs {f : Value} (hf : f.Known V s) {done : Array Value}
    (hdone : ∀ v ∈ done, v.Known V s) {xs : List Value} (hxs : ∀ x ∈ xs, x.Known V s)
    (span : Span) :
    V.Runs s (fun t ys => ∀ y ∈ ys, y.Known V t) (ev.mapCalls f span done xs) := by
  induction xs generalizing s done with
  | nil => exact .pure fun _ hst v hv => (hdone v hv).mono hst
  | cons x xs ih =>
    obtain ⟨hx, hxs⟩ := List.forall_mem_cons.mp hxs
    refine .bind (h.call span hf (List.forall_mem_singleton.mpr hx)) fun t y hst _ hy => ?_
    refine ih (hf.mono hst) ?_ (Value.Known.all_mono hxs hst)
    exact Array.forall_mem_push.mpr ⟨hy, fun v hv => (hdone v hv).mono hst⟩

theorem filterCalls_runs {f : Value} (hf : f.Known V s) {kept : Array Value}
    (hkept : ∀ v ∈ kept, v.Known V s) {xs : List Value} (hxs : ∀ x ∈ xs, x.Known V s)
    (span : Span) :
    V.Runs s (fun t ys => ∀ y ∈ ys, y.Known V t) (ev.filterCalls f span kept xs) := by
  induction xs generalizing s kept with
  | nil => exact .pure fun _ hst v hv => (hkept v hv).mono hst
  | cons x xs ih =>
    obtain ⟨hx, hxs⟩ := List.forall_mem_cons.mp hxs
    refine .bind (h.call span hf (List.forall_mem_singleton.mpr hx)) fun t verdict hst _ hv => ?_
    refine .bind (truthy_runs h hv span) fun u keep htu _ _ => ?_
    have hsu := hst.trans htu
    have hkept : ∀ v ∈ kept, v.Known V u := fun v hv => (hkept v hv).mono hsu
    have hxs : ∀ v ∈ xs, v.Known V u := Value.Known.all_mono hxs hsu
    split
    · exact ih (hf.mono hsu) (Array.forall_mem_push.mpr ⟨hx.mono hsu, hkept⟩) hxs
    · exact ih (hf.mono hsu) hkept hxs

theorem foldCalls_runs {f acc : Value} (hf : f.Known V s) (hacc : acc.Known V s)
    {xs : List Value} (hxs : ∀ x ∈ xs, x.Known V s) (span : Span) :
    V.Runs s (Value.Known V) (ev.foldCalls f span acc xs) := by
  induction xs generalizing s acc with
  | nil => exact .value hacc
  | cons x xs ih =>
    obtain ⟨hx, hxs⟩ := List.forall_mem_cons.mp hxs
    have harguments : ∀ v ∈ [acc, x], v.Known V s := by simp [hacc, hx]
    refine .bind (h.call span hf harguments) fun _ _ hst _ hacc => ?_
    exact ih (hf.mono hst) hacc (Value.Known.all_mono hxs hst)

theorem reduce_runs {f : Value} (hf : f.Known V s) {initial : Option Value}
    (hi : ∀ v, initial = some v → v.Known V s) {elements : List Value}
    (he : ∀ v ∈ elements, v.Known V s) (span : Span) :
    V.Runs s (Value.Known V) (ev.reduce f initial elements span) := by
  unfold reduce
  split
  · next acc => exact foldCalls_runs h hf (hi acc rfl) he span
  · next x xs =>
    obtain ⟨hx, hxs⟩ := List.forall_mem_cons.mp he
    exact foldCalls_runs h hf hx hxs span
  · exact .invalid _ span

theorem exceptionMethod_runs (f : ExceptionMethod) {arguments : List Value}
    (ha : ∀ v ∈ arguments, v.Known V s) (span : Span) :
    V.Runs s (Value.Known V) (ev.exceptionMethod f arguments span) := by
  have hmessage {id : Nat} : V.Shows (.object id) "message" := fun _ _ _ => by decide
  refine .bind (thisInstance_runs ha span) fun t this hst _ hthis => ?_
  cases f with
  | init =>
    have hknown : Value.Known V t (arguments[1]?.getD .null) := by
      cases hv : arguments[1]? with
      | none => trivial
      | some v => exact (ha v (List.mem_of_getElem? hv)).mono hst
    have hopen : V.Opens this "message" := ⟨hthis.1.2, fun _ => by decide⟩
    exact .bind (.action (acts_setField hopen hknown)) fun _ _ _ _ _ => .value trivial
  | str =>
    refine .bind .store fun u _ htu hu heq => ?_
    subst heq
    split
    · exact .value trivial
    · exact .value trivial
    · next message hfield =>
      have hknown := hu.field? hfield hthis.1.2 hmessage
      exact .bind (text_runs h hu hknown false span) fun _ _ _ _ _ => .value trivial

theorem listMethod_runs (f : ListMethod) {arguments : List Value}
    (ha : ∀ v ∈ arguments, v.Known V s) (span : Span) :
    V.Runs s (Value.Known V) (ev.listMethod f arguments span) := by
  refine .bind (thisList_runs ha span) fun t this hst ht hthis => ?_
  have ha : ∀ v ∈ arguments, v.Known V t := Value.Known.all_mono ha hst
  cases f with
  | get =>
    exact .bind (argument_runs ha 1) fun _ v _ _ _ => .bind (intArgument_runs v _ span)
      fun _ index _ _ _ => .attempt (tries_listGet this index) span
  | set =>
    refine .bind (argument_runs ha 1) fun u v htu _ _ => ?_
    refine .bind (intArgument_runs v _ span) fun w index huw _ _ => ?_
    refine .bind (argument_runs (Value.Known.all_mono ha (htu.trans huw)) 2) fun _ v _ _ hv => ?_
    exact .bind (.attempt (tries_listSet hthis.2 hv index) span) fun _ _ _ _ _ => .value trivial
  | length => exact .bind .store fun _ _ _ _ _ => .value trivial
  | push =>
    refine .bind (argument_runs ha 1) fun _ v _ _ hv => ?_
    exact .bind (.attempt (tries_listPush hthis.2 hv) span) fun _ _ _ _ _ => .value trivial
  | insert =>
    refine .bind (argument_runs ha 1) fun u v htu _ _ => ?_
    refine .bind (intArgument_runs v _ span) fun w index huw _ _ => ?_
    refine .bind (argument_runs (Value.Known.all_mono ha (htu.trans huw)) 2) fun _ v _ _ hv => ?_
    exact .bind (.attempt (tries_listInsert hthis.2 hv index) span) fun _ _ _ _ _ =>
      .value trivial
  | remove =>
    exact .bind (argument_runs ha 1) fun _ v _ _ _ => .bind (intArgument_runs v _ span)
      fun _ index _ _ _ => .attempt (tries_listRemove hthis.2 index) span
  | pop => exact .attempt (tries_listPop hthis.2) span
  | contains =>
    refine .bind (argument_runs ha 1) fun u v _ _ hv => .bind .store fun w _ huw hw heq => ?_
    subst heq
    have hxs : ∀ x ∈ (Store.list _ this).toList, x.Known V _ := fun x hx =>
      hw.list x (Array.mem_toList_iff.mp hx)
    exact .bind (containsEqual_runs h (hv.mono huw) hxs span) fun _ _ _ _ _ => .value trivial
  | map =>
    refine .bind (argument_runs ha 1) fun u f _ _ hf => .bind .store fun w _ huw hw heq => ?_
    subst heq
    have hxs : ∀ x ∈ (Store.list _ this).toList, x.Known V _ := fun x hx =>
      hw.list x (Array.mem_toList_iff.mp hx)
    exact .bind (mapCalls_runs h (hf.mono huw) (by simp) hxs span) fun _ _ _ _ hys =>
      .action (acts_newList hys)
  | filter =>
    refine .bind (argument_runs ha 1) fun u f _ _ hf => .bind .store fun w _ huw hw heq => ?_
    subst heq
    have hxs : ∀ x ∈ (Store.list _ this).toList, x.Known V _ := fun x hx =>
      hw.list x (Array.mem_toList_iff.mp hx)
    exact .bind (filterCalls_runs h (hf.mono huw) (by simp) hxs span) fun _ _ _ _ hys =>
      .action (acts_newList hys)
  | reduce =>
    refine .bind (argument_runs ha 1) fun u f htu _ hf => .bind .store fun w _ huw hw heq => ?_
    subst heq
    have hxs : ∀ x ∈ (Store.list _ this).toList, x.Known V _ := fun x hx =>
      hw.list x (Array.mem_toList_iff.mp hx)
    refine reduce_runs h (hf.mono huw) (fun v hv => ?_) hxs span
    exact (ha v (List.mem_of_getElem? hv)).mono (htu.trans huw)
  | iter =>
    refine .bind .store fun _ _ _ hu heq => newIterator_runs fun v hv => ?_
    exact hu.list v (heq ▸ hv)

theorem globalFunction_runs {f : GlobalFunction} (hraise : f ≠ .raise) {arguments : List Value}
    (ha : ∀ v ∈ arguments, v.Known V s) (span : Span) :
    V.Runs s (Value.Known V) (ev.globalFunction f arguments span) := by
  have hfirst := argument_runs ha 0
  cases f with
  | print => exact print_runs h ha span
  | str | dump =>
    exact .bind hfirst fun _ v _ ht hv => .bind (text_runs h ht hv _ span) fun _ _ _ _ _ =>
      .value trivial
  | len =>
    exact .bind hfirst fun _ v _ _ hv =>
      callMethod_runs h hv (List.forall_mem_nil _) (by decide) span
  | iter => exact .bind hfirst fun _ v _ _ hv => iterate_runs h hv span
  | next =>
    exact .bind hfirst fun _ v _ _ hv =>
      callMethod_runs h hv (List.forall_mem_nil _) (by decide) span
  | item => exact .bind hfirst fun _ v _ _ hv => .action (acts_newItem hv)
  | raise => exact absurd rfl hraise
  | exit => exact exit_runs arguments span
  | range => exact range_runs arguments span
  | type =>
    exact .bind .store fun _ _ hst _ _ => .bind (hfirst.mono hst) fun _ _ _ _ _ => .value trivial
  | isinstance =>
    exact .bind (argument_runs ha 1) fun _ type hst _ _ => .bind (hfirst.mono hst)
      fun _ v _ _ _ => isInstance_runs v type span
  | int => exact .bind hfirst fun _ v _ _ _ => toInt_runs v span
  | float => exact .bind hfirst fun _ v _ _ _ => toFloat_runs v span

theorem hostCall_runs (host : HostRef) {arguments : List Value}
    (ha : ∀ v ∈ arguments, v.Known V s) (span : Span) :
    V.Runs s (Value.Known V) (ev.hostCall host arguments span) := by
  unfold hostCall
  split
  · exact .value trivial
  next f hf =>
  have hhonest : f.Honest := h.honest f (Array.mem_of_getElem? hf)
  refine .bind .store fun t u hst ht heq => ?_
  subst heq
  -- all values that the host gets to see are known
  have hseen : ∀ v ∈ HostValue.valuesOf (arguments.map (HostValue.ofValue u)), v.Known V u := by
    intro v hv
    rw [HostValue.valuesOf_eq] at hv
    obtain ⟨_, hargument, hv⟩ := List.mem_flatMap.mp hv
    obtain ⟨a, hmem, rfl⟩ := List.mem_map.mp hargument
    exact HostValue.known_ofValueAt ht ((ha a hmem).mono hst) v hv
  refine .bind (.action (acts_onStore _)) fun w result huw _ hresult => ?_
  split
  · next result =>
    obtain ⟨x, handles, hrun⟩ := hresult
    refine .attempt (HostValue.tries_toValue result fun v hv => ?_) span
    rcases hhonest _ x handles result hrun.symm v hv with hmem | ⟨id, rfl⟩
    · exact (hseen v hmem).mono huw
    · trivial
  · exact .invalid _ span

theorem builtin_runsAt {m : Machine} (hm : m.store.Sound V) {b : Builtin} {arguments : List Value}
    (ha : ∀ v ∈ arguments, v.Known V m.store) (hp : V.Permits m.store (.builtin b) arguments)
    (span : Span) : V.RunsAt m (Value.Known V) (ev.builtin b arguments span) := by
  cases b with
  | global f =>
    by_cases hraise : f = .raise
    · subst hraise
      cases hhead : arguments.head? with
      | none =>
        rw [List.head?_eq_none_iff.mp hhead]
        exact .ofError rfl (.refl m) (.of_ne Halt.defect_ne)
      | some v =>
        have hargument : argument arguments 0 m = .ok v m := by
          rw [argument, ← List.head?_eq_getElem?, hhead]
          rfl
        have hraised := raiseValue_runsAt h hm (ha v (List.mem_of_head? hhead))
          (hp.raise rfl v hhead) span
        exact hraised.after (.refl m) (bind_of_ok hargument)
    · exact (globalFunction_runs h hraise ha span).now hm
  | exception f => exact (exceptionMethod_runs h f ha span).now hm
  | list f => exact (listMethod_runs h f ha span).now hm
  | dict f => exact (dictMethod_runs f ha span).now hm
  | string f => exact (stringMethod_runs f arguments span).now hm
  | iterator f =>
    have hnext : f = .next → _ := fun hf =>
      hp.next (congrArg (fun f => Native.builtin (.iterator f)) hf)
    exact (iteratorMethod_runs f ha hnext span).now hm

/-- A call of a native function that takes that many arguments may have to be permitted. -/
theorem native_runsAt {m : Machine} (hm : m.store.Sound V) {f : Native} {receiver : Option Value}
    {arguments : List Value} (ha : ∀ v ∈ receiver.toList ++ arguments, v.Known V m.store)
    (hp : f.arity.accepts (receiver.toList ++ arguments).length = true →
      V.Permits m.store f (receiver.toList ++ arguments)) (span : Span) :
    V.RunsAt m (Value.Known V) (ev.native f receiver arguments span) := by
  unfold native
  dsimp only
  split
  · next haccepts =>
    cases f with
    | builtin b => exact builtin_runsAt h hm ha (hp haccepts) span
    | host host => exact (hostCall_runs h host ha span).now hm
  · exact Runs.now (.raise _ span) hm

end Evaluator
end Rill
