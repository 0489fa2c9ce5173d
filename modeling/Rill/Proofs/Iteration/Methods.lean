import Rill.Proofs.Veil.Sessions

/-! Calls of the methods that built-in classes have, and what those do that call a function once for
each element of a list. -/
namespace Rill

open Text (Span)
open Eval

variable {V : Veil} {m n : Machine}

section

variable {m : Type → Type} [Monad m] [LawfulMonad m] {α : Type}

theorem filterAuxM_eq (p : α → m Bool) (xs kept : List α) :
    xs.filterAuxM p kept = (do let ys ← xs.filterAuxM p []; pure (ys ++ kept)) := by
  induction xs generalizing kept with
  | nil => simp [List.filterAuxM]
  | cons x xs ih =>
    simp only [List.filterAuxM, bind_assoc]
    congr 1
    funext b
    rw [ih (bif b then x :: kept else kept), ih (bif b then [x] else [])]
    cases b <;> simp

theorem filterM_cons (p : α → m Bool) (x : α) (xs : List α) :
    (x :: xs).filterM p =
      (do let b ← p x
          let ys ← xs.filterM p
          pure (if b then x :: ys else ys)) := by
  unfold List.filterM
  simp only [List.filterAuxM, bind_assoc, pure_bind]
  congr 1
  funext b
  rw [filterAuxM_eq p xs]
  cases b <;> simp

end

/-- A run ends because there were more calls in progress than there may be. -/
def Eval.Overflows {α : Type} (limit : Nat) (r : EStateM.Result Halt Machine α) : Prop :=
  ∃ e n, r = .error (.exception e) n ∧ e.cause = some (.stackOverflow limit)

/-- What a program calls a method of lists. -/
def ListMethod.word : ListMethod → String
  | .get => "get"
  | .set => "set"
  | .length => "length"
  | .push => "push"
  | .insert => "insert"
  | .remove => "remove"
  | .pop => "pop"
  | .contains => "contains"
  | .map => "map"
  | .filter => "filter"
  | .reduce => "reduce"
  | .iter => "iter"

theorem ListMethod.name_eq_word (f : ListMethod) : f.name = f.word := by cases f <;> rfl

/-- A method of the list with a number. -/
def ListMethod.boundTo (f : ListMethod) (id : Nat) : Value := .bound (.builtin (.list f)) (.list id)

/-- A built-in class has its own attributes. -/
theorem Store.Sound.attribute?_builtin {s : Store} (hs : s.Sound V) {c : BuiltinClass}
    {name : String} {v : Value} (h : (Session.builtinClass c).attributes.get? name = some v) :
    s.attribute? c.number name = some v := by
  rw [Store.attribute?, hs.builtins c]
  simp only [h]

namespace Evaluator

/-- A method of a built-in class is bound to the value through which it is found, unless that has a
field of this name. -/
theorem getAttribute_builtin (hm : m.store.Sound V) {v : Value} {c : BuiltinClass} {b : Builtin}
    {name : String} (hclass : classOf? m.store v = some c.number)
    (hown : ∀ id, v = .object id → m.store.field? id name = none)
    (hb : (Session.builtinClass c).attributes.get? name = some (.native (.builtin b)))
    (span : Span) : getAttribute v name span m = .ok (.bound (.builtin b) v) m := by
  have hmethod : (classOf? m.store v >>= (m.store.attribute? · name)) =
      some (.native (.builtin b)) := by
    rw [hclass]
    exact hm.attribute?_builtin hb
  have hfound : attribute? v name m.store = (some (.bound (.builtin b) v), m.store) := by
    cases v with
    | list id | dict id | str text =>
      unfold attribute?
      simp only [bind, StateT.bind, get, getThe, MonadStateOf.get, StateT.get, pure]
      simp only [bind] at hmethod
      rw [hmethod]
      rfl
    | object id =>
      have hattribute : m.store.attribute? (m.store.typeOf id) name =
        some (.native (.builtin b)) := hmethod
      have hfield := hown id rfl
      unfold attribute?
      simp only [bind, StateT.bind, get, getThe, MonadStateOf.get, StateT.get, pure, hfield,
        hattribute]
      rfl
    | _ => cases hclass
  have hread : (attribute? v name : Eval (Option Value)) m =
      .ok (some (.bound (.builtin b) v)) m := by
    change EStateM.Result.ok (attribute? v name m.store).1
      { m with store := (attribute? v name m.store).2 } = _
    rw [hfound]
  have hmodule : ∀ id, v ≠ .module id := by
    rintro id rfl
    cases hclass
  unfold getAttribute
  split
  · next id => exact absurd rfl (hmodule id)
  · rw [bind_of_ok hread]
    rfl

variable {settings : Settings} {fuel : Nat}

/-- A call of a built-in function does what the function does, unless it is one call too many. -/
theorem call_builtin {callee : Value} {b : Builtin} {arguments all : List Value}
    (hcall : nativeCall? callee arguments = some (.builtin b, all))
    (haccepts : b.arity.accepts all.length = true) (hdepth : m.calls.size < settings.maxCallDepth)
    (span : Span) :
    (ofFuel settings (fuel + 1)).call callee arguments span m =
      inCall ⟨b.name, span⟩ ((ofFuel settings fuel).builtin b all span) m := by
  have hname : calleeName m.store callee = b.name := by
    cases callee with
    | native f | bound f receiver =>
      cases hcall
      rfl
    | _ => cases hcall
  have hdispatch : (ofFuel settings fuel).dispatch callee arguments span =
      (ofFuel settings fuel).builtin b all span :=
    dispatch_builtin hcall haccepts _ span
  rw [call_ofFuel, hdispatch, calling_of_le hdepth, hname]

/-- What a call of a method of lists does can be said of the list as it is when the call is made. -/
theorem call_listMethod {id : Nat} {f : ListMethod} {arguments : List Value}
    (haccepts : f.arity.accepts (Value.list id :: arguments).length = true)
    (hdepth : m.calls.size < settings.maxCallDepth) (span : Span) {x : Eval Value}
    (hx : ∀ calls,
      (ofFuel settings fuel).listMethod f (.list id :: arguments) span { m with calls } =
        x { m with calls }) :
    (ofFuel settings (fuel + 1)).call (f.boundTo id) arguments span m =
      inCall ⟨f.name, span⟩ x m := by
  have hcall : nativeCall? (f.boundTo id) arguments =
      some (.builtin (.list f), .list id :: arguments) := rfl
  rw [call_builtin hcall haccepts hdepth]
  exact inCall_congr (hx _)

theorem callMethod_builtin (hm : m.store.Sound V) {v : Value} {c : BuiltinClass} {b : Builtin}
    {name : String} {arguments : List Value} (hclass : classOf? m.store v = some c.number)
    (hown : ∀ id, v = .object id → m.store.field? id name = none)
    (hb : (Session.builtinClass c).attributes.get? name = some (.native (.builtin b)))
    (haccepts : b.arity.accepts (v :: arguments).length = true)
    (hdepth : m.calls.size < settings.maxCallDepth) (span : Span) :
    (ofFuel settings (fuel + 1)).callMethod v name arguments span m =
      inCall ⟨b.name, span⟩ ((ofFuel settings fuel).builtin b (v :: arguments) span) m := by
  have hmethod := getAttribute_builtin hm hclass hown hb span
  exact (bind_of_ok hmethod).trans (call_builtin rfl haccepts hdepth span)

/-- One call too many is a stack overflow, whatever it is of. -/
theorem call_overflow (hdepth : settings.maxCallDepth ≤ m.calls.size) (callee : Value)
    (arguments : List Value) (span : Span) :
    Overflows settings.maxCallDepth
      ((ofFuel settings (fuel + 1)).call callee arguments span m) := by
  obtain ⟨s, e, -, -, hcause, hoverflow⟩ :=
    calling_overflow (Nat.lt_succ_of_le hdepth) callee span
  rw [call_ofFuel, hoverflow]
  exact ⟨e, _, rfl, hcause⟩

theorem callMethod_overflow (hm : m.store.Sound V) {v : Value} {c : BuiltinClass} {b : Builtin}
    {name : String} (hclass : classOf? m.store v = some c.number)
    (hown : ∀ id, v = .object id → m.store.field? id name = none)
    (hb : (Session.builtinClass c).attributes.get? name = some (.native (.builtin b)))
    (hdepth : settings.maxCallDepth ≤ m.calls.size) (arguments : List Value) (span : Span) :
    Overflows settings.maxCallDepth
      ((ofFuel settings (fuel + 1)).callMethod v name arguments span m) := by
  obtain ⟨e, n, hcall, hcause⟩ := call_overflow hdepth (.bound (.builtin b) v) arguments span
  exact ⟨e, n, (bind_of_ok (getAttribute_builtin hm hclass hown hb span)).trans hcall, hcause⟩

/-! ### Functions called for each element -/

variable (ev : Evaluator)

theorem mapCalls_eq (f : Value) (span : Span) (done : Array Value) (xs : List Value) :
    ev.mapCalls f span done xs =
      (do let ys ← xs.mapM fun x => ev.call f [x] span
          return done ++ ys.toArray) := by
  induction xs generalizing done with
  | nil => simp [mapCalls]
  | cons x xs ih => simp [mapCalls, ih, List.mapM_cons]

theorem filterCalls_eq (f : Value) (span : Span) (kept : Array Value) (xs : List Value) :
    ev.filterCalls f span kept xs =
      (do let ys ← xs.filterM fun x => do ev.truthy (← ev.call f [x] span) span
          return kept ++ ys.toArray) := by
  induction xs generalizing kept with
  | nil => simp [filterCalls, List.filterM, List.filterAuxM]
  | cons x xs ih =>
    rw [filterM_cons]
    simp only [filterCalls, ih, bind_assoc]
    congr 1
    funext verdict
    congr 1
    funext b
    cases b <;> simp

theorem foldCalls_eq (f : Value) (span : Span) (acc : Value) (xs : List Value) :
    ev.foldCalls f span acc xs = xs.foldlM (fun acc x => ev.call f [acc, x] span) acc := by
  induction xs generalizing acc with
  | nil => rfl
  | cons x xs ih => simp [foldCalls, ih, List.foldlM_cons]

/-- What `map` does is done to the elements that the list has now. -/
theorem listMethod_map (id : Nat) (f : Value) (span : Span) (m : Machine) :
    ev.listMethod .map [.list id, f] span m =
      (do let ys ← (m.store.list id).toList.mapM fun x => ev.call f [x] span
          Store.newList ys.toArray : Eval Value) m := by
  have hmap : ev.listMethod .map [.list id, f] span m =
      (do let ys ← ev.mapCalls f span #[] (m.store.list id).toList
          Store.newList ys : Eval Value) m := rfl
  rw [hmap, mapCalls_eq]
  simp

theorem listMethod_filter (id : Nat) (f : Value) (span : Span) (m : Machine) :
    ev.listMethod .filter [.list id, f] span m =
      (do let ys ← (m.store.list id).toList.filterM fun x => do
            ev.truthy (← ev.call f [x] span) span
          Store.newList ys.toArray : Eval Value) m := by
  have hfilter : ev.listMethod .filter [.list id, f] span m =
      (do let ys ← ev.filterCalls f span #[] (m.store.list id).toList
          Store.newList ys : Eval Value) m := rfl
  rw [hfilter, filterCalls_eq]
  simp

theorem listMethod_reduce (id : Nat) (f initial : Value) (span : Span) (m : Machine) :
    ev.listMethod .reduce [.list id, f, initial] span m =
      (m.store.list id).toList.foldlM (fun acc x => ev.call f [acc, x] span) initial m := by
  rw [← foldCalls_eq]
  rfl

/-- Without a value to begin with, `reduce` begins with the first element. -/
theorem listMethod_reduce_first (id : Nat) (f : Value) (span : Span) (m : Machine) :
    ev.listMethod .reduce [.list id, f] span m =
      (match (m.store.list id).toList with
        | [] => invalid "reduce of an empty list needs an initial value." span
        | x :: xs => xs.foldlM (fun acc x => ev.call f [acc, x] span) x) m := by
  have hreduce : ev.listMethod .reduce [.list id, f] span m =
      ev.reduce f none (m.store.list id).toList span m := rfl
  rw [hreduce]
  cases (m.store.list id).toList with
  | nil => rfl
  | cons x xs => exact congrFun (foldCalls_eq ev f span x xs) m

end Evaluator

/-- There are as many results as there were arguments. -/
theorem length_of_mapM_eq_ok {α β : Type} {f : α → Eval β} {as : List α} {bs : List β}
    (h : as.mapM f m = .ok bs n) : bs.length = as.length := by
  induction as generalizing bs m with
  | nil =>
    cases h
    rfl
  | cons a as ih =>
    rw [List.mapM_cons] at h
    obtain ⟨b, o, -, hrest⟩ := of_bind_eq_ok h
    obtain ⟨bs, o, hbs, hpure⟩ := of_bind_eq_ok hrest
    cases hpure
    simp [ih hbs]

end Rill
