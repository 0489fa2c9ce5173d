import Rill.Proofs.Exceptions

/-! Which hooks the operations on an instance consult, and what comes of calling them. -/
namespace Rill

open Text (Span)
open Eval

namespace Store

variable {V : Veil} {s : Store}

/-- The attribute that a class has itself. -/
def ownAttribute? (s : Store) (type : Nat) (name : String) : Option Value :=
  s.classes[type]? >>= (·.attributes.get? name)

/-- An attribute of a class is that of the first class of its lineage that has one. -/
theorem Lineage.attribute?_eq (hs : s.Sound V) {type : Nat} {chain : List Nat}
    (h : s.Lineage type chain) (name : String) :
    s.attribute? type name = chain.findSome? (s.ownAttribute? · name) := by
  induction h with
  | @root id c hclass hsuper =>
    have hown : s.ownAttribute? id name = c.attributes.get? name := by
      rw [ownAttribute?, hclass]
      rfl
    rw [attribute?, hclass]
    simp only [hsuper, List.findSome?_cons, List.findSome?_nil, hown]
    cases c.attributes.get? name <;> rfl
  | @derived id parent c rest hclass hsuper _ ih =>
    have hown : s.ownAttribute? id name = c.attributes.get? name := by
      rw [ownAttribute?, hclass]
      rfl
    have hlt : parent < id := (hs.superclasses id c hclass).2 parent hsuper
    rw [attribute?, hclass]
    simp only [hsuper, List.findSome?_cons, hown, if_pos hlt, ih]
    cases c.attributes.get? name <;> rfl

/-- An instance has an attribute: in a field of its own, or from a class that its class is or derives
from. -/
inductive Offers (s : Store) (id : Nat) (name : String) : Prop
  | field {v : Value} : s.field? id name = some v → Offers s id name
  | inherited {chain : List Nat} {type : Nat} {v : Value} : s.Lineage (s.typeOf id) chain →
      type ∈ chain → s.ownAttribute? type name = some v → Offers s id name

theorem Sound.offers_iff (hs : s.Sound V) {id : Nat} (hid : id < s.instances.size) (name : String) :
    s.Offers id name ↔
      (s.field? id name).isSome ∨ (s.attribute? (s.typeOf id) name).isSome := by
  obtain ⟨chain, hchain, -⟩ := hs.exists_lineage (hs.typeOf_lt hid)
  constructor
  · intro h
    cases h with
    | field hfield => exact .inl (Option.isSome_of_eq_some hfield)
    | inherited hlineage hmem hown =>
      rw [hlineage.attribute?_eq hs name]
      exact .inr (List.findSome?_isSome_iff.mpr ⟨_, hmem, Option.isSome_of_eq_some hown⟩)
  · rintro (hfield | hinherited)
    · obtain ⟨v, hv⟩ := Option.isSome_iff_exists.mp hfield
      exact .field hv
    · rw [hchain.attribute?_eq hs name] at hinherited
      obtain ⟨type, hmem, hown⟩ := List.findSome?_isSome_iff.mp hinherited
      obtain ⟨v, hv⟩ := Option.isSome_iff_exists.mp hown
      exact .inherited hchain hmem hv

end Store

/-- What looking an attribute of an instance up comes to. -/
theorem Evaluator.attribute?_object (id : Nat) (name : String) (s : Store) :
    attribute? (.object id) name s =
      match s.field? id name with
      | some field => (some field, s)
      | none =>
        match s.attribute? (s.typeOf id) name with
        | some method => ((bindMethod method (.object id) s).1, (bindMethod method (.object id) s).2)
        | none => (none, s) := by
  change (match s.field? id name with
    | some field => _
    | none => _ : Store.Action (Option Value)) s = _
  cases s.field? id name with
  | some field => rfl
  | none =>
    dsimp only
    cases s.attribute? (s.typeOf id) name <;> rfl

theorem Eval.action_eq_ok {α : Type} {action : Store.Action α} {m : Machine} {a : α} {s : Store}
    (h : action m.store = (a, s)) : (action : Eval α) m = .ok a { m with store := s } := by
  have hrun : (action : Eval α) m =
      .ok (action m.store).1 { m with store := (action m.store).2 } := rfl
  rw [hrun, h]

/-- What is raised for a fault is an instance of the class of the fault. -/
theorem Eval.raise_typeOf {α : Type} {fault : Fault} {span : Span} {m n : Machine} {e : Exception}
    (h : raise (α := α) fault span m = .error (.exception e) n) :
    n.store.typeOf e.payload = fault.type.number := by
  let payload : Instance := ⟨fault.type.number, Table.ofList [("message", .str fault.message)]⟩
  have hraise : raise (α := α) fault span m = .error
      (.exception ⟨m.store.instances.size, fault.type.name, fault.message, span, m.calls, fault⟩)
      { m with store := { m.store with instances := m.store.instances.push payload } } := rfl
  rw [hraise] at h
  cases h
  simp [Store.typeOf, payload]

/-- The class of an exception says that an attribute or a variable is not there. -/
def Exception.IsMissing (e : Exception) (s : Store) : Prop :=
  s.typeOf e.payload = BuiltinClass.attrNotFound.number ∨
    s.typeOf e.payload = BuiltinClass.varNotFound.number

instance (e : Exception) (s : Store) : Decidable (e.IsMissing s) :=
  inferInstanceAs (Decidable (_ ∨ _))

/-- Whether a hook is there can as well be told from the exception with which fetching it fails, by
the class of that. -/
theorem Evaluator.callHook_eq_fetch (ev : Evaluator) (id : Nat) (name : String)
    (arguments : List Value) (span : Span) (m : Machine) :
    ev.callHook id name arguments span m =
      match getAttribute (.object id) name span m with
      | .ok hook n => (do return some (← ev.call hook arguments span) : Eval _) n
      | .error (.exception e) n =>
        if e.IsMissing n.store then .ok none m else .error (.exception e) n
      | .error halt n => .error halt n := by
  cases hread : attribute? (.object id) name m.store with
  | mk found s =>
    have hfetch := action_eq_ok hread
    unfold callHook getAttribute
    dsimp only
    rw [bind_of_ok hfetch, bind_of_ok hfetch]
    cases found with
    | some hook => rfl
    | none =>
      have hs : s = m.store := by
        rw [attribute?_object] at hread
        split at hread
        · cases hread
        · split at hread
          · cases hread
          · cases hread
            rfl
      subst hs
      obtain ⟨_, e, -, -, -, hraise⟩ := exists_raise (α := Value)
        (.attrNotFound (m.store.typeName (.object id)) name) span m
      have hmissing : e.IsMissing _ := .inl (raise_typeOf hraise)
      have hget : (do raise (.attrNotFound ((← store).typeName (.object id)) name) span : Eval Value)
          m = _ := hraise
      simp only [hget, if_pos hmissing]
      rfl

/-- What can be done to an instance by way of a hook, with the type of its result. -/
inductive Operation : Type → Type where
  | binary (op : BinaryOp) (rhs : Value) : Operation Value
  | unary (op : UnaryOp) : Operation Value
  | truth : Operation Bool
  | getItem (index : Value) : Operation Value
  | setItem (index value : Value) : Operation Unit
  | call (arguments : List Value) : Operation Value
  /-- The text of the instance; the flag asks for the form with quotes. -/
  | text (quoted : Bool) : Operation String

namespace Operation

variable {α : Type}

/-- The hook of an operator between two values. -/
def binaryHook : BinaryOp → String
  | .add => "__add__"
  | .sub => "__sub__"
  | .mul => "__mul__"
  | .div => "__div__"
  | .floorDiv => "__floordiv__"
  | .mod => "__mod__"
  | .pow => "__pow__"
  | .bitAnd => "__and__"
  | .bitOr => "__or__"
  | .bitXor => "__xor__"
  | .shiftLeft => "__lshift__"
  | .shiftRight => "__rshift__"
  | .eq => "__eq__"
  | .ne => "__ne__"
  | .lt => "__lt__"
  | .le => "__le__"
  | .gt => "__gt__"
  | .ge => "__ge__"

/-- The hook of an operator before a value. -/
def unaryHook : UnaryOp → String
  | .plus => "__pos__"
  | .minus => "__neg__"
  | .tilde => "__invert__"
  | .bang => "__not__"

theorem hook_eq_binaryHook (op : BinaryOp) : op.hook = binaryHook op := by cases op <;> rfl

theorem hook_eq_unaryHook (op : UnaryOp) : op.hook = unaryHook op := by cases op <;> rfl

/-- The hooks for an operation. The first that there is counts. -/
def hooks : Operation α → List String
  | binary op _ => [binaryHook op]
  | unary op => [unaryHook op]
  | truth => ["__bool__"]
  | getItem _ => ["__getitem__"]
  | setItem _ _ => ["__setitem__"]
  | call _ => ["__call__"]
  | text false => ["__str__"]
  | text true => ["__repr__", "__str__"]

/-- What a hook is called with. -/
def arguments : Operation α → List Value
  | binary _ rhs => [rhs]
  | getItem index => [index]
  | setItem index value => [index, value]
  | call arguments => arguments
  | unary _ | truth | text _ => []

/-- Whether a value counts as true by itself: all but nothing, the false, zeros and what is empty. -/
def counts (s : Store) : Value → Bool
  | .null => false
  | .bool b => b
  | .int i => decide (i.toInt ≠ 0)
  | .float x => decide (x.magnitude ≠ 0)
  | .str t => decide (t ≠ "")
  | .list id => decide ((s.list id).toList ≠ [])
  | .dict id => decide ((s.dict id).toList ≠ [])
  | _ => true

theorem isTruthy_eq_counts (s : Store) (v : Value) : s.isTruthy v = counts s v := by
  refine Bool.eq_iff_iff.mpr ?_
  cases v with
  | int i =>
    have hzero : i.toInt = 0 ↔ i = 0 := Int64.toInt_inj (y := 0)
    simp [Store.isTruthy, counts, hzero]
  | float x => simp [Store.isTruthy, counts, Binary64.isZero]
  | str t => simp [Store.isTruthy, counts]
  | list id => simp [Store.isTruthy, counts]
  | dict id => simp [Store.isTruthy, counts, Table.size, Table.toList]
  | _ => exact Iff.rfl

/-- What the operation gives if a hook has given `v`. -/
def result (s : Store) (v : Value) : Operation α → α
  | binary _ _ | unary _ | getItem _ | call _ => v
  | truth => counts s v
  | setItem _ _ => ()
  | text _ =>
    match v with
    | .str t => t
    | _ => s.display v

variable (ev : Evaluator) (id : Nat) (span : Span)

/-- What programs do for the operation. -/
def run : Operation α → Eval α
  | binary op rhs => ev.binary op (.object id) rhs span
  | unary op => ev.unary op (.object id) span
  | truth => ev.truthy (.object id) span
  | getItem index => ev.getItem (.object id) index span
  | setItem index value => ev.setItem (.object id) index value span
  | call arguments => ev.dispatch (.object id) arguments span
  | text quoted => ev.text quoted (.object id) span

/-- What the operation is without hooks. Then `!=` is the negation of what `==` gives, and `!` that of
truth, where these have hooks of their own. -/
def default : Operation α → Eval α
  | binary .ne rhs => do
    let equal ← (binary .eq rhs).run ev id span
    return .bool (!(← ev.truthy equal span))
  | binary op rhs => attempt (Arithmetic.binary op (.object id) rhs) span
  | unary .bang => do return .bool (!(← truth.run ev id span))
  | unary op => attempt (Arithmetic.unary op (.object id)) span
  | truth => return true
  | getItem _ | setItem _ _ => Evaluator.notSubscriptable (.object id) span
  | call _ => do raise (.notCallable ((← store).typeName (.object id))) span
  | text _ => do return (← store).instanceText id

/-- Calls the first of some hooks that there is. -/
def consult (o : Operation α) : List String → Eval α
  | [] => o.default ev id span
  | name :: names => do
    match ← ev.callHook id name o.arguments span with
    | some v => return o.result (← store) v
    | none => consult o names

theorem hookText_eq (v : Value) (quoted : Bool) :
    Evaluator.hookText v = do return (text quoted).result (← store) v := by
  cases v <;> rfl

/-- Without a hook of its own, `!=` goes on as `==` does. -/
theorem binary_ne_of_absent (rhs : Value) :
    (do
      let equal ← match ← ev.callHook id BinaryOp.eq.hook [rhs] span with
        | some result => pure result
        | none => attempt (Arithmetic.binary .eq (.object id) rhs) span
      return .bool (!(← ev.truthy equal span))) = (binary .ne rhs).default ev id span := by
  change _ = ev.binary .eq (.object id) rhs span >>= _
  rw [Evaluator.binary, bind_assoc]
  refine congrArg (ev.callHook id BinaryOp.eq.hook [rhs] span >>= ·) (funext fun found => ?_)
  cases found <;> rfl

theorem instanceText_eq_consult (quoted : Bool) : ev.instanceText id false span =
    (text quoted).consult ev id span ["__str__"] := by
  refine congrArg (ev.callHook id "__str__" [] span >>= ·) (funext fun found => ?_)
  cases found with
  | some v => exact hookText_eq v quoted
  | none => rfl

theorem run_eq_consult (o : Operation α) : o.run ev id span = o.consult ev id span o.hooks := by
  cases o with
  | binary op rhs =>
    rw [hooks, ← hook_eq_binaryHook]
    refine congrArg (ev.callHook id op.hook [rhs] span >>= ·) (funext fun found => ?_)
    cases found with
    | some v => rfl
    | none =>
      cases op with
      | ne => exact binary_ne_of_absent ev id span rhs
      | _ => rfl
  | unary op =>
    rw [hooks, ← hook_eq_unaryHook]
    refine congrArg (ev.callHook id op.hook [] span >>= ·) (funext fun found => ?_)
    cases found with
    | some v => rfl
    | none => cases op <;> rfl
  | truth =>
    refine congrArg (ev.callHook id "__bool__" [] span >>= ·) (funext fun found => ?_)
    cases found with
    | some v =>
      simp only [result, ← isTruthy_eq_counts]
    | none => rfl
  | getItem index =>
    refine congrArg (ev.callHook id "__getitem__" [index] span >>= ·) (funext fun found => ?_)
    cases found <;> rfl
  | setItem index value =>
    refine congrArg (ev.callHook id "__setitem__" [index, value] span >>= ·) (funext fun found => ?_)
    cases found <;> rfl
  | call arguments =>
    refine congrArg (ev.callHook id "__call__" arguments span >>= ·) (funext fun found => ?_)
    cases found <;> rfl
  | text quoted =>
    cases quoted with
    | false => exact instanceText_eq_consult ev id span false
    | true =>
      have hstr := instanceText_eq_consult ev id span true
      change (do
        let named ← ev.callHook id "__repr__" [] span
        match named with
        | some v => Evaluator.hookText v
        | none => ev.instanceText id false span) = _
      refine congrArg (ev.callHook id "__repr__" [] span >>= ·) (funext fun found => ?_)
      cases found with
      | some v => exact hookText_eq v true
      | none => exact hstr

/-! ### Hooks that are there and hooks that are not -/

section

variable {ev id span} {V : Veil} {m : Machine} {name : String}

theorem attribute?_of_absent (hm : m.store.Sound V) (hid : id < m.store.instances.size)
    (h : ¬ m.store.Offers id name) :
    Evaluator.attribute? (.object id) name m.store = (none, m.store) := by
  rw [hm.offers_iff hid, not_or, Option.not_isSome_iff_eq_none, Option.not_isSome_iff_eq_none] at h
  rw [Evaluator.attribute?_object, h.1, h.2]

theorem attribute?_of_offers (hm : m.store.Sound V) (hid : id < m.store.instances.size)
    (h : m.store.Offers id name) :
    ∃ hook s, Evaluator.attribute? (.object id) name m.store = (some hook, s) := by
  rw [hm.offers_iff hid] at h
  rw [Evaluator.attribute?_object]
  cases hfield : m.store.field? id name with
  | some v => exact ⟨v, _, rfl⟩
  | none =>
    rw [hfield] at h
    obtain ⟨method, hmethod⟩ := Option.isSome_iff_exists.mp (h.resolve_left nofun)
    rw [hmethod]
    exact ⟨_, _, rfl⟩

/-- A hook that there is none of is passed over. -/
theorem callHook_of_absent (h : Evaluator.attribute? (.object id) name m.store = (none, m.store))
    (arguments : List Value) : ev.callHook id name arguments span m = .ok none m := by
  have hlookup : (Evaluator.attribute? (.object id) name : Eval (Option Value)) m = .ok none m :=
    action_eq_ok h
  rw [Evaluator.callHook, bind_of_ok hlookup]
  rfl

/-- A hook that there is decides how the operation ends. -/
theorem callHook_of_found {hook : Value} {s : Store}
    (h : Evaluator.attribute? (.object id) name m.store = (some hook, s)) (arguments : List Value) :
    ev.callHook id name arguments span m =
      (do return some (← ev.call hook arguments span) : Eval _) { m with store := s } := by
  have hlookup : (Evaluator.attribute? (.object id) name : Eval (Option Value)) m =
      .ok (some hook) { m with store := s } := action_eq_ok h
  rw [Evaluator.callHook, bind_of_ok hlookup]

variable {α : Type} {o : Operation α} {names : List String}

theorem consult_of_absent
    (h : Evaluator.attribute? (.object id) name m.store = (none, m.store)) :
    o.consult ev id span (name :: names) m = o.consult ev id span names m := by
  rw [consult, bind_of_ok (callHook_of_absent h o.arguments)]

theorem consult_of_found {hook : Value} {s : Store}
    (h : Evaluator.attribute? (.object id) name m.store = (some hook, s)) :
    o.consult ev id span (name :: names) m =
      (do
        let v ← ev.call hook o.arguments span
        return o.result (← store) v : Eval α) { m with store := s } := by
  rw [consult, bind_congr_at (callHook_of_found h o.arguments), bind_assoc]
  simp only [pure_bind]

end

end Operation

/-- What hooks decide. In every store that a program can bring about, an operation on an instance
that offers none of its hooks is what it is by default. Else the first hook that the instance offers
is called with the operands, in the store that fetching it left, and nothing else is done: a call
that ends early is how the operation ends, with all that it left; and if the call gives a value, then
the operation succeeds by it. -/
theorem operation_decided {settings : Settings} (hhosts : ∀ f ∈ settings.hosts, f.Honest)
    {session : Session} (h : session.Arises settings) {m : Machine}
    (hm : session.machine.store.Reaches m.store) {id : Nat} (hid : id < m.store.instances.size)
    (fuel : Nat) {α : Type} (o : Operation α) (span : Span) :
    let ev := Evaluator.ofFuel settings fuel
    ((∀ name ∈ o.hooks, ¬ m.store.Offers id name) → o.run ev id span m = o.default ev id span m) ∧
    ∀ absent name rest, o.hooks = absent ++ name :: rest →
      (∀ other ∈ absent, ¬ m.store.Offers id other) → m.store.Offers id name →
      ∃ hook s, Evaluator.attribute? (.object id) name m.store = (some hook, s) ∧
        (∀ halt n, ev.call hook o.arguments span { m with store := s } = .error halt n →
          o.run ev id span m = .error halt n) ∧
        (∀ v n, ev.call hook o.arguments span { m with store := s } = .ok v n →
          o.run ev id span m = .ok (o.result n.store v) n) := by
  intro ev
  have hs : m.store.Sound .lifted := Store.Moves.sound hm.moves (h.sound hhosts)
  have hskip (names absent : List String) (habsent : ∀ name ∈ absent, ¬ m.store.Offers id name) :
      o.consult ev id span (absent ++ names) m = o.consult ev id span names m := by
    induction absent with
    | nil => rfl
    | cons name absent ih =>
      obtain ⟨hname, hothers⟩ := List.forall_mem_cons.mp habsent
      have hlookup := Operation.attribute?_of_absent hs hid hname
      exact (Operation.consult_of_absent hlookup).trans (ih hothers)
  rw [o.run_eq_consult]
  constructor
  · intro habsent
    have hnone := hskip [] o.hooks habsent
    rwa [List.append_nil] at hnone
  · intro absent name rest hhooks habsent hoffers
    obtain ⟨hook, s, hlookup⟩ := Operation.attribute?_of_offers hs hid hoffers
    have hrun : o.consult ev id span o.hooks m =
        (do
          let v ← ev.call hook o.arguments span
          return o.result (← store) v : Eval α) { m with store := s } := by
      rw [hhooks, hskip _ _ habsent]
      exact Operation.consult_of_found hlookup
    refine ⟨hook, s, hlookup, ?_, ?_⟩
    · intro halt n hcall
      rw [hrun, bind_of_error hcall]
    · intro v n hcall
      rw [hrun, bind_of_ok hcall]
      rfl

/-- The name of the class of an exception with which a computation ended. -/
def Eval.raised? {α : Type} : EStateM.Result Halt Machine α → Option String
  | .error (.exception e) _ => some e.className
  | _ => none

/-- A hook for `==` that fails for want of an attribute, in an instance without a hook for `!=`. -/
theorem operation_decided_failing :
    let settings : Settings := ⟨9, false, fun _ => .error "no such file", Host.toolkit.toArray⟩
    let source := "class A \x7b fun __eq__(other) \x7b return this.missing \x7d \x7d new A()"
    let session := ((Session.start settings).runWith (.ofFuel settings 9) source).2
    let m := session.machine
    let ev := Evaluator.ofFuel settings 9
    (Operation.binary .ne (.int 1)).run ev 0 ⟨0, 1⟩ m =
      (Operation.binary .ne (.int 1)).default ev 0 ⟨0, 1⟩ m ∧
    ∃ hook s e n, Evaluator.attribute? (.object 0) "__eq__" m.store = (some hook, s) ∧
      e.className = "AttrNotFound" ∧
      ev.call hook [.int 1] ⟨0, 1⟩ { m with store := s } = .error (.exception e) n ∧
      (Operation.binary .eq (.int 1)).run ev 0 ⟨0, 1⟩ m = .error (.exception e) n := by
  intro settings source
  have hhosts : ∀ f ∈ settings.hosts, f.Honest := by
    intro f hf
    exact Host.honest_toolkit f (List.mem_toArray.mp hf)
  have harises : ((Session.start settings).runWith (.ofFuel settings 9) source).2.Arises settings :=
    .run 9 source .start
  -- the source is run once for all that is to be seen of it
  have hrun :
      let m := ((Session.start settings).runWith (.ofFuel settings 9) source).2.machine
      0 < m.store.instances.size ∧
        ¬ ((m.store.field? 0 "__ne__").isSome ∨
          (m.store.attribute? (m.store.typeOf 0) "__ne__").isSome) ∧
        ((m.store.field? 0 "__eq__").isSome ∨
          (m.store.attribute? (m.store.typeOf 0) "__eq__").isSome) ∧
        Eval.raised? ((Operation.binary .eq (.int 1)).run (.ofFuel settings 9) 0 ⟨0, 1⟩ m) =
          some "AttrNotFound" := by
    decide +kernel
  generalize ((Session.start settings).runWith (.ofFuel settings 9) source).2 = session at *
  dsimp only
  obtain ⟨hid, hne, heq, hraised⟩ := hrun
  have hs : session.machine.store.Sound .lifted := harises.sound hhosts
  rw [← hs.offers_iff hid] at hne heq
  have hdecided {α : Type} (o : Operation α) :=
    operation_decided hhosts harises (.refl session.machine.store) hid 9 o ⟨0, 1⟩
  have habsent : ∀ name ∈ (Operation.binary .ne (.int 1)).hooks,
      ¬ session.machine.store.Offers 0 name := by
    intro name hname
    cases List.mem_singleton.mp hname
    exact hne
  refine ⟨(hdecided (.binary .ne (.int 1))).1 habsent, ?_⟩
  obtain ⟨hook, s, hlookup, herror, hok⟩ :=
    (hdecided (.binary .eq (.int 1))).2 [] _ [] rfl nofun heq
  cases hcall : (Evaluator.ofFuel settings 9).call hook [.int 1] ⟨0, 1⟩
      { session.machine with store := s } with
  | ok v n =>
    rw [hok v n hcall] at hraised
    cases hraised
  | error halt n =>
    rw [herror halt n hcall] at hraised
    cases halt with
    | exception e => exact ⟨hook, s, e, n, hlookup, Option.some.inj hraised, hcall, herror _ n hcall⟩
    | _ => cases hraised

end Rill
