import Rill.Proofs.Hooks
import Rill.Proofs.Places.Statements
import Rill.Proofs.Places.Toolkit
import Rill.Proofs.Renumbering.Sessions
import Rill.Proofs.Renumbering.Toolkit
import Rill.Proofs.Veil.Toolkit

/-! A method called through its receiver does what it does if the receiver is the first argument. -/
namespace Rill

open Text (Span)
open Eval Renumbering

namespace Evaluator

variable {m : Machine}

/-- What the class of a value has is bound to the value, unless that has a field of this name. -/
theorem attribute?_bound {s : Store} {o v : Value} {type : Nat} {name : String}
    (hclass : classOf? s o = some type) (hown : ∀ id, o = .object id → s.field? id name = none)
    (hv : s.attribute? type name = some v) :
    attribute? o name s = (some (bindMethod v o s).1, (bindMethod v o s).2) := by
  have hfound : (classOf? s o >>= (s.attribute? · name)) = some v := by
    rw [hclass]
    exact hv
  cases o with
  | object id =>
    have hattribute : s.attribute? (s.typeOf id) name = some v := hfound
    rw [attribute?_object, hown id rfl]
    simp only [hattribute]
  | list id | dict id | str text =>
    rw [attribute?, Store.get_bind]
    dsimp only
    rw [hfound]
    rfl
  | _ => cases hclass

theorem getAttribute_bound {o v : Value} {type : Nat} {name : String}
    (hclass : classOf? m.store o = some type)
    (hown : ∀ id, o = .object id → m.store.field? id name = none)
    (hv : m.store.attribute? type name = some v) (span : Span) :
    getAttribute o name span m =
      .ok (bindMethod v o m.store).1 { m with store := (bindMethod v o m.store).2 } := by
  have hread := Eval.action_eq_ok (attribute?_bound hclass hown hv)
  unfold getAttribute
  cases o with
  | module id => cases hclass
  | _ => exact bind_of_ok hread

theorem getAttribute_type {type : Nat} {name : String} {v : Value}
    (hv : m.store.attribute? type name = some v) (span : Span) :
    getAttribute (.type type) name span m = .ok v m :=
  getAttribute_type_eq_ok.mpr hv

variable {ev : Evaluator}

/-- A method takes its receiver from the first argument, if it has none. -/
theorem bindThis_bound {f : Function} (hreceiver : f.receiver = none) (hmethod : f.isMethod = true)
    (frame : Nat) (o : Value) (arguments : List Value) (span : Span) :
    bindThis { f with receiver := some o } frame arguments span =
      bindThis f frame (o :: arguments) span := by
  unfold bindThis
  rw [hreceiver, hmethod]

theorem callFunction_bound {f : Function} (hreceiver : f.receiver = none)
    (hmethod : f.isMethod = true) (o : Value) (arguments : List Value) (span : Span) :
    ev.callFunction { f with receiver := some o } arguments span =
      ev.callFunction f (o :: arguments) span := by
  unfold callFunction
  refine bind_congr fun frame => ?_
  rw [bindThis_bound hreceiver hmethod]
  rfl

/-- A native function gets its receiver as the first argument. -/
theorem native_bound {f : Native} {o : Value} {arguments : List Value}
    (h : f.arity.accepts (arguments.length + 1) = true) (span : Span) :
    ev.native f (some o) arguments span = ev.native f none (o :: arguments) span := by
  have haccepts : f.arity.accepts ((some o).toList ++ arguments).length = true := h
  have haccepts' : f.arity.accepts ((none : Option Value).toList ++ o :: arguments).length = true :=
    h
  unfold native
  dsimp only
  rw [if_pos haccepts, if_pos haccepts']
  rfl

/-- Runs `body` as a call, unless that is one too many. -/
def entering (limit : Nat) (frame : CallFrame) (body : Eval Value) : Eval Value :=
  inCall frame (do
    if limit < (← get).calls.size then raise (.stackOverflow limit) frame.span else body)

theorem entering_of_lt {limit : Nat} (h : limit < m.calls.size + 1) (frame : CallFrame)
    (body : Eval Value) :
    entering limit frame body m = inCall frame (raise (.stackOverflow limit) frame.span) m := by
  refine inCall_congr ?_
  have hlt : limit < (m.calls.push frame).size := by simpa using h
  exact congrFun (if_pos hlt) _

theorem entering_of_le {limit : Nat} (h : m.calls.size + 1 ≤ limit) (frame : CallFrame)
    (body : Eval Value) : entering limit frame body m = inCall frame body m := by
  refine inCall_congr ?_
  have hle : ¬limit < (m.calls.push frame).size := by simpa using h
  exact congrFun (if_neg hle) _

/-- A call enters what its callee means there. -/
theorem callValue_eq_entering {callee : Value} {arguments : List Value} {span : Span}
    {frame : CallFrame} {body : Eval Value} (hname : ⟨calleeName m.store callee, span⟩ = frame)
    (hbody : ∀ calls, ev.dispatch callee arguments span { m with calls } = body { m with calls }) :
    ev.callValue callee arguments span m = entering ev.settings.maxCallDepth frame body m := by
  subst hname
  change calling ev.settings.maxCallDepth callee span (ev.dispatch callee arguments span) m = _
  by_cases hlimit : ev.settings.maxCallDepth < m.calls.size + 1
  · rw [calling_of_lt hlimit, entering_of_lt hlimit]
  · have hlimit : m.calls.size + 1 ≤ ev.settings.maxCallDepth := Nat.le_of_not_lt hlimit
    rw [calling_of_le hlimit, entering_of_le hlimit]
    exact inCall_congr (hbody _)

theorem callValue_function {id : Nat} {f : Function} (hf : m.store.functions[id]? = some f)
    (arguments : List Value) (span : Span) :
    ev.callValue (.function id) arguments span m =
      entering ev.settings.maxCallDepth ⟨f.name, span⟩ (ev.callFunction f arguments span) m := by
  have hname : m.store.functionName id = f.name := by
    rw [Store.functionName, hf]
    rfl
  refine callValue_eq_entering (congrArg (CallFrame.mk · span) hname) fun calls => ?_
  have hstore : store { m with calls } = .ok m.store { m with calls } := rfl
  rw [dispatch, bind_of_ok hstore, hf]

theorem renumbers_entering {n k : Nat} {x y : Eval Value} (limit : Nat) (frame : CallFrame)
    (h : ∀ j, k ≤ j → Runs n j x y) :
    Runs n k (entering limit frame x) (entering limit frame y) := by
  refine .inCall frame (.get fun m m' hm hk => ?_)
  rw [hm.calls]
  split
  · exact .raise _ frame.span
  · exact h _ hk

end Evaluator

/-- The failure of a native function that does not take as many arguments, of which the first ones
are the receiver, if it has one. -/
def Native.miscount (f : Native) (receivers given : Nat) : Fault :=
  .argCount f.name (f.arity.without receivers).describe given

/-- Both calls of a native function failed in the same way because of the number of arguments. The
first was called with the receiver among them and the second without, and they tell so; all else is
the same. -/
inductive Miscounted (f : Native) (given : Nat) :
    EStateM.Result Halt Machine Value → EStateM.Result Halt Machine Value → Prop
  | intro {e : Exception} {m : Machine} :
      e.message = (f.miscount 0 (given + 1)).message → e.cause = some (f.miscount 0 (given + 1)) →
      Miscounted f given (.error (.exception e) m)
        (.error (.exception { e with
            message := (f.miscount 1 given).message
            cause := some (f.miscount 1 given) })
          { m with store :=
            (Store.setField e.payload "message" (.str (f.miscount 1 given).message) m.store).2 })

/-- What a call comes to at another place: the same but for places, and just the same at the same
place. -/
structure Elsewhere (span span' : Span) (r r' : EStateM.Result Halt Machine Value) : Prop where
  like : Matched Machine.Like Halt.Like Eq r r'
  same : span = span' → r = r'

theorem modify_push_size {α : Type} (xs : Array α) (a : α) (f : α → α) :
    (xs.push a).modify xs.size f = xs.push (f a) := by
  apply Array.ext_getElem?
  intro i
  rw [Array.getElem?_modify, Array.getElem?_push, Array.getElem?_push]
  by_cases hi : xs.size = i
  · rw [if_pos hi, if_pos hi.symm, if_pos hi.symm]
    rfl
  · rw [if_neg hi, if_neg (Ne.symm hi), if_neg (Ne.symm hi)]

namespace Evaluator

variable {m : Machine} {ev : Evaluator}

theorem miscounted_raise (f : Native) (given : Nat) (frame : CallFrame) :
    Miscounted f given (inCall frame (raise (f.miscount 0 (given + 1)) frame.span) m)
      (inCall frame (raise (f.miscount 1 given) frame.span) m) := by
  let made (fault : Fault) : Machine :=
    { m with store := { m.store with
      instances := m.store.instances.push
        ⟨BuiltinClass.argCount.number, Table.ofList [("message", .str fault.message)]⟩ } }
  let e (fault : Fault) : Exception :=
    { payload := m.store.instances.size, className := BuiltinClass.argCount.name
      message := fault.message, span := frame.span, traceback := m.calls.push frame
      cause := some fault }
  have hrun (receivers given : Nat) :
      inCall frame (raise (α := Value) (f.miscount receivers given) frame.span) m =
        .error (.exception (e (f.miscount receivers given))) (made (f.miscount receivers given)) := by
    have hraise : raise (α := Value) (f.miscount receivers given) frame.span
        { m with calls := m.calls.push frame } =
          .error (.exception (e (f.miscount receivers given)))
            { made (f.miscount receivers given) with calls := m.calls.push frame } := rfl
    rw [inCall_of_error hraise, Array.pop_push]
  -- the two instances differ in the field that is then written
  have hfields (v w : Value) :
      (Table.ofList [("message", v)]).put "message" w = Table.ofList [("message", w)] := by
    simp [Table.ofList, Table.put, Table.empty]
  have hmade (fault fault' : Fault) :
      { made fault with store := (Store.setField m.store.instances.size "message"
        (.str fault'.message) (made fault).store).2 } = made fault' := by
    have hinstances := modify_push_size m.store.instances
      ⟨BuiltinClass.argCount.number, Table.ofList [("message", .str fault.message)]⟩
      fun o => { o with fields := o.fields.put "message" (.str fault'.message) }
    rw [hfields] at hinstances
    exact congrArg (fun instances =>
      { m with store := { m.store with instances } }) hinstances
  rw [hrun, hrun, ← hmade (f.miscount 0 (given + 1)) (f.miscount 1 given)]
  exact .intro rfl rfl

theorem native_of_refused {f : Native} {receiver : Option Value} {arguments : List Value}
    (h : f.arity.accepts (receiver.toList ++ arguments).length = false) (span : Span) :
    ev.native f receiver arguments span =
      raise (f.miscount receiver.toList.length arguments.length) span := by
  have hrefused : ¬f.arity.accepts (receiver.toList ++ arguments).length = true := by
    rw [h]
    exact Bool.false_ne_true
  unfold native
  exact if_neg hrefused

/-- A native function is called the same with its receiver as the first argument. If these are not as
many arguments as it takes, both calls fail. -/
theorem call_native (settings : Settings) (fuel : Nat) (f : Native) (o : Value)
    (arguments : List Value) (span : Span) :
    let ev := ofFuel settings fuel
    (f.arity.accepts (arguments.length + 1) = true →
      ev.call (.native f) (o :: arguments) span m = ev.call (.bound f o) arguments span m) ∧
    (ev.call (.native f) (o :: arguments) span m = ev.call (.bound f o) arguments span m ∨
      Miscounted f arguments.length (ev.call (.native f) (o :: arguments) span m)
        (ev.call (.bound f o) arguments span m)) := by
  cases fuel with
  | zero => exact ⟨fun _ => rfl, .inl rfl⟩
  | succ fuel =>
    let ev := ofFuel settings fuel
    let frame : CallFrame := ⟨f.name, span⟩
    have hunbound : (ofFuel settings (fuel + 1)).call (.native f) (o :: arguments) span m =
        entering ev.settings.maxCallDepth frame (ev.native f none (o :: arguments) span) m :=
      callValue_eq_entering rfl fun _ => rfl
    have hbound : (ofFuel settings (fuel + 1)).call (.bound f o) arguments span m =
        entering ev.settings.maxCallDepth frame (ev.native f (some o) arguments span) m :=
      callValue_eq_entering rfl fun _ => rfl
    dsimp only
    rw [hunbound, hbound]
    cases haccepts : f.arity.accepts (arguments.length + 1) with
    | true =>
      rw [native_bound haccepts]
      exact ⟨fun _ => rfl, .inl rfl⟩
    | false =>
      have hfull : ev.native f none (o :: arguments) span =
          raise (f.miscount 0 (arguments.length + 1)) span := native_of_refused haccepts span
      have hvisible : ev.native f (some o) arguments span =
          raise (f.miscount 1 arguments.length) span := native_of_refused haccepts span
      refine ⟨nofun, ?_⟩
      by_cases hlimit : ev.settings.maxCallDepth < m.calls.size + 1
      · left
        rw [entering_of_lt hlimit, entering_of_lt hlimit]
      · right
        have hlimit : m.calls.size + 1 ≤ ev.settings.maxCallDepth := Nat.le_of_not_lt hlimit
        rw [entering_of_le hlimit, entering_of_le hlimit, hfull, hvisible]
        exact miscounted_raise f arguments.length frame

variable {settings : Settings}

/-- The machine after a method was bound to its receiver: there is one function more. -/
def binding (m : Machine) (f : Function) (o : Value) : Machine :=
  { m with store :=
    { m.store with functions := m.store.functions.push { f with receiver := some o } } }

theorem renumbered_binding (hs : m.store.Closed) (f : Function) (o : Value) :
    m.Renumbered m.made (binding m f o) :=
  ⟨hs.renumbered_push _, rfl, rfl, rfl⟩

/-- A method that was bound to its receiver is called the same with the receiver as the first
argument, where it was not bound. -/
theorem call_function (hev : ∀ fuel, (ofFuel settings fuel).Oblivious) (hs : m.store.Closed)
    {id : Nat} {f : Function} (hf : m.store.functions[id]? = some f) (hreceiver : f.receiver = none)
    (hmethod : f.isMethod = true) {o : Value} (ho : Below m.made o) {arguments : List Value}
    (ha : Below m.made arguments) (fuel : Nat) (span : Span) :
    Ended (Machine.Renumbered m.made) Machine.made m.made m.made
      ((ofFuel settings fuel).call (.function id) (o :: arguments) span m)
      ((ofFuel settings fuel).call (.function m.made) arguments span (binding m f o)) := by
  have hm := renumbered_binding hs f o
  cases fuel with
  | zero => exact .error hm le_rfl
  | succ fuel =>
    let ev := ofFuel settings fuel
    let frame : CallFrame := ⟨f.name, span⟩
    have hbound : (binding m f o).store.functions[m.made]? =
        some { f with receiver := some o } := Array.getElem?_push_size
    have hplain : ev.callValue (.function id) (o :: arguments) span m =
        entering ev.settings.maxCallDepth frame (ev.callFunction f (o :: arguments) span) m :=
      callValue_function hf _ span
    have hcall : ev.callValue (.function m.made) arguments span (binding m f o) =
        entering ev.settings.maxCallDepth frame (ev.callFunction f (o :: arguments) span)
          (binding m f o) := by
      rw [callValue_function hbound, callFunction_bound hreceiver hmethod]
      rfl
    change Ended _ _ _ _ (ev.callValue (.function id) (o :: arguments) span m)
      (ev.callValue (.function m.made) arguments span (binding m f o))
    rw [hplain, hcall]
    -- nothing in the call of the function has a number after that of the bound one
    have hfunction : Below m.made f := hs.functions f (Array.mem_of_getElem? hf)
    have hall : Below m.made (o :: arguments) := below_cons ho ha
    refine renumbers_entering _ frame (fun j hj => ?_) m _ hm le_rfl
    have hruns := renumbers_callFunction (n := m.made) (hev fuel) (hfunction.mono hj)
      (hall.mono hj) span
    rwa [hfunction.fixed, hall.fixed] at hruns

end Evaluator

open Evaluator

/-- To call a method through a value is to call it unbound with the value as the first argument. In
every state that comes about, let a class have an attribute, itself or from those that it derives
from, and let a value whose class has the same attribute have no field of this name. Then a function
or a native function that has no receiver yet is found through the class as it is, and through the
value with the value as its receiver. Called with the value before the other arguments in the first
case, and without it in the second, it gives the same result or fails with the same exception, and
leaves the same machine; but a function that was bound is one more than there were, with the next
number. Only if a native function gets another number of arguments than it takes, the messages count
them differently. If the calls have different places, they differ in these. -/
theorem bound_call_eq_unbound {settings : Settings} (hoblivious : ∀ f ∈ settings.hosts, f.Oblivious)
    (hhonest : ∀ f ∈ settings.hosts, f.Honest) (hblind : ∀ f ∈ settings.hosts, f.Blind)
    {m : Machine} (hm : m.store.Attained settings) {o v : Value} {type ancestor : Nat}
    {name : String} (hclass : classOf? m.store o = some type)
    (hown : ∀ id, o = .object id → m.store.field? id name = none)
    (hv : m.store.attribute? type name = some v) (hv' : m.store.attribute? ancestor name = some v)
    {arguments : List Value} (ha : Below m.made arguments) (fuel : Nat) (span span' : Span) :
    let ev := ofFuel settings fuel
    getAttribute (.type ancestor) name span m = .ok v m ∧
    (∀ id f, v = .function id → m.store.functions[id]? = some f → f.receiver = none →
      ∃ n r, m.Renumbered m.made n ∧
        getAttribute o name span' m = .ok (.function m.made) n ∧
        Ended (Machine.Renumbered m.made) Machine.made m.made m.made
          (ev.call v (o :: arguments) span m) r ∧
        Elsewhere span span' r (ev.call (.function m.made) arguments span' n)) ∧
    ∀ f, v = .native f →
      getAttribute o name span' m = .ok (.bound f o) m ∧
      ∃ r, (f.arity.accepts (arguments.length + 1) = true →
          ev.call v (o :: arguments) span m = r) ∧
        (ev.call v (o :: arguments) span m = r ∨
          Miscounted f arguments.length (ev.call v (o :: arguments) span m) r) ∧
        Elsewhere span span' r (ev.call (.bound f o) arguments span' m) := by
  intro ev
  have hs : m.store.Closed := hm.closed hoblivious hhonest
  have ho : Below m.made o := by
    cases o with
    | object | list | dict | str => trivial
    | _ => cases hclass
  have helsewhere (callee : Value) (n : Machine) : Elsewhere span span'
      (ev.call callee arguments span n) (ev.call callee arguments span' n) := by
    refine ⟨?_, fun hspan => by rw [hspan]⟩
    exact (blind_ofFuel hblind fuel).call callee arguments span span' n n
      (Machine.Like.equivalence.refl n)
  have hfetch := getAttribute_bound hclass hown hv span'
  refine ⟨getAttribute_type hv' span, fun id f hid hf hreceiver => ?_, fun f hnative => ?_⟩
  · subst hid
    have hmethod : f.isMethod = true := by
      obtain ⟨g, hg, hmethod⟩ := Store.attribute?_all hs.methods hv id rfl
      rw [hf] at hg
      cases hg
      exact hmethod
    have hbind : bindMethod (.function id) o m.store =
        (.function m.made, (binding m f o).store) := by
      rw [bindMethod, Store.get_bind, hf]
      rfl
    rw [hbind] at hfetch
    have hev := oblivious_ofFuel hoblivious hhonest
    exact ⟨binding m f o, _, renumbered_binding hs f o, hfetch,
      call_function hev hs hf hreceiver hmethod ho ha fuel span, helsewhere _ _⟩
  · subst hnative
    obtain ⟨haccepted, hany⟩ := call_native settings fuel f o arguments span
    exact ⟨hfetch, _, haccepted, hany, helsewhere _ _⟩

/-- What a computation gave, if it gave something. -/
def Eval.given? {α : Type} : EStateM.Result Halt Machine α → Option α
  | .ok a _ => some a
  | .error _ _ => none

/-- A method that a class inherits doubles its argument, through an instance and unbound. -/
theorem bound_call_eq_unbound_inherited :
    let settings : Settings := ⟨9, false, fun _ => .error "no such file", Host.toolkit.toArray⟩
    let source :=
      "class A \x7b fun twice(x) \x7b return x + x \x7d \x7d class B(A) \x7b \x7d b = B()"
    let m := ((Session.start settings).runWith (.ofFuel settings 9) source).2.machine
    let ev := ofFuel settings 9
    getAttribute (.type 17) "twice" ⟨0, 1⟩ m = .ok (.function 1) m ∧
      given? (ev.call (.function 1) [.object 0, .int 3] ⟨0, 1⟩ m) = some (.int 6) ∧
      ∃ n, getAttribute (.object 0) "twice" ⟨2, 3⟩ m = .ok (.function 2) n ∧
        given? (ev.call (.function 2) [.int 3] ⟨2, 3⟩ n) = some (.int 6) := by
  intro settings source
  have htoolkit {f : HostFunction} (hf : f ∈ settings.hosts) : f ∈ Host.toolkit :=
    List.mem_toArray.mp hf
  have hm : ((Session.start settings).runWith (.ofFuel settings 9) source).2.machine.store.Attained
      settings := Store.Attained.start.runWith 9 source
  -- the source is run once for all that is to be seen of it
  have hrun :
      let m := ((Session.start settings).runWith (.ofFuel settings 9) source).2.machine
      classOf? m.store (.object 0) = some 18 ∧ m.store.field? 0 "twice" = none ∧
        m.store.attribute? 18 "twice" = some (.function 1) ∧
        m.store.attribute? 17 "twice" = some (.function 1) ∧ m.made = 2 ∧
        (m.store.functions[1]?.map (·.receiver)) = some none ∧
        given? ((ofFuel settings 9).call (.function 1) [.object 0, .int 3] ⟨0, 1⟩ m) =
          some (.int 6) := by
    decide +kernel
  generalize ((Session.start settings).runWith (.ofFuel settings 9) source).2.machine = m at *
  dsimp only
  obtain ⟨hclass, hfield, hv, hv', hmade, hreceiver, hgiven⟩ := hrun
  obtain ⟨f, hf, hnone⟩ := Option.map_eq_some_iff.mp hreceiver
  have hown (id : Nat) (hid : Value.object 0 = .object id) : m.store.field? id "twice" = none := by
    cases hid
    exact hfield
  have harguments : Below m.made [Value.int 3] := by
    have hthree : Below m.made (Value.int 3) := trivial
    exact below_cons hthree below_nil
  obtain ⟨hfetch, hfunction, -⟩ := bound_call_eq_unbound
    (fun f hf => Host.oblivious_toolkit f (htoolkit hf))
    (fun f hf => Host.honest_toolkit f (htoolkit hf))
    (fun f hf => Host.blind_toolkit f (htoolkit hf)) hm hclass hown hv hv' harguments 9 ⟨0, 1⟩ ⟨2, 3⟩
  obtain ⟨n, r, -, hbound, hended, helsewhere⟩ := hfunction 1 f rfl hf hnone
  rw [hmade] at hbound helsewhere
  refine ⟨hfetch, hgiven, n, hbound, ?_⟩
  have hlike := helsewhere.like
  generalize (ofFuel settings 9).call (.function 1) _ _ m = unbound at hgiven hended
  generalize (ofFuel settings 9).call (.function 2) _ _ n = bound at hlike
  cases hended with
  | error _ _ => cases hgiven
  | ok hb _ _ _ =>
    cases hgiven
    cases hlike with
    | ok hsame _ => exact congrArg some (hsame.symm.trans hb)

end Rill
