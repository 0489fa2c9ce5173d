import Rill.Proofs.Places.Machine

/-! Operations on values do not see places. -/
namespace Rill

open Text (Span)
open Eval

/-- The host does the same whatever the places of the functions in the store. -/
def HostAction.Blind {α : Type} (action : HostAction α) : Prop :=
  ∀ (s : Store) (handles : Array Int64), action s.bare handles = action s handles

/-- The function of the host sees nothing of places. -/
def HostFunction.Blind (f : HostFunction) : Prop := ∀ arguments, (f.run arguments).Blind

/-- Whatever places are given to an evaluator, it does the same up to places. -/
structure Evaluator.Blind (ev : Evaluator) : Prop where
  call : ∀ callee arguments span span',
    RunsAlike (ev.call callee arguments span) (ev.call callee arguments span')
  block : ∀ body frame, RunsAlike (ev.block body frame) (ev.block body frame)
  stray : ∀ signal, RunsAlike (ev.stray signal) (ev.stray signal)
  watch : ∀ object name sets, RunsAlike (ev.watch object name sets) (ev.watch object name sets)
  hosts : ∀ f ∈ ev.settings.hosts, f.Blind

namespace Evaluator

theorem alike_bindMethod (method receiver : Value) :
    Store.ActsAlike (bindMethod method receiver) (bindMethod method receiver) := by
  cases method with
  | function id =>
    apply Store.ActsAlike.get
    intro s t hst
    have hfound := hst.functions id
    generalize s.functions[id]? = found at hfound
    generalize t.functions[id]? = found' at hfound
    cases hfound with
    | none => exact .pure _
    | some hbare =>
      apply Store.alike_newFunction
      exact congrArg (fun f : Function => { f with receiver := some receiver }) hbare
  | _ => exact .pure _

theorem alike_attribute? (object : Value) (name : String) :
    Store.ActsAlike (attribute? object name) (attribute? object name) := by
  have hbound (method : Value) : Store.ActsAlike (do return some (← bindMethod method object))
      (do return some (← bindMethod method object)) := by
    apply Store.ActsAlike.bind (alike_bindMethod method object)
    intro v
    exact .pure _
  apply Store.ActsAlike.get
  intro s t hst
  have hclass : classOf? s = classOf? t := hst.congr fun _ => rfl
  rw [hst.attribute?, hst.field?, hst.typeOf, hclass]
  split
  · exact .pure _
  · split
    · exact .pure _
    · split
      · exact hbound _
      · exact .pure _
  · split
    · exact hbound _
    · exact .pure _

theorem alike_getAttribute (object : Value) (name : String) (span span' : Span) :
    RunsAlike (getAttribute object name span) (getAttribute object name span') := by
  unfold getAttribute
  split
  · apply RunsAlike.store
    intro s t hst
    rw [hst.modules]
    split
    · exact .pure _
    · exact .raiseOf (fun _ _ hst => by rw [hst.moduleName]) span span'
  · apply RunsAlike.bind (.action (alike_attribute? object name))
    intro found
    cases found with
    | some v => exact .pure v
    | none =>
      exact .raiseOf (fun _ _ hst => by rw [hst.typeName]) span span'

theorem alike_setAttribute (object : Value) (name : String) (v : Value) (span span' : Span) :
    RunsAlike (setAttribute object name v span) (setAttribute object name v span') := by
  unfold setAttribute
  split
  · exact .action (Store.alike_setField _ name v)
  · exact .raiseOf (fun _ _ hst => by rw [hst.typeName]) span span'

theorem alike_intArgument (v : Value) (what : String) (span span' : Span) :
    RunsAlike (intArgument v what span) (intArgument v what span') := by
  unfold intArgument
  split
  · exact .pure _
  · exact .invalidOf (fun _ _ hst => by rw [hst.typeName]) span span'

theorem alike_notSubscriptable {α : Type} (object : Value) (span span' : Span) :
    RunsAlike (α := α) (notSubscriptable object span) (notSubscriptable object span') :=
  .raiseOf (fun _ _ hst => by rw [hst.typeName]) span span'

theorem alike_charAt (s : String) (index : Int64) : Store.TriesAlike (charAt s index) := by
  apply Store.TriesAlike.bind (.lift _)
  intro position
  split
  · exact .pure _
  · exact Mirrors.throw rfl

theorem alike_hookText (v : Value) : RunsAlike (hookText v) (hookText v) := by
  unfold hookText
  split
  · exact .pure _
  · exact .pureOf fun _ _ hst => by rw [hst.display]

variable {ev : Evaluator} (h : ev.Blind)

include h

theorem alike_callMethod (object : Value) (name : String) (arguments : List Value)
    (span span' : Span) :
    RunsAlike (ev.callMethod object name arguments span)
      (ev.callMethod object name arguments span') := by
  apply RunsAlike.bind (alike_getAttribute object name span span')
  intro method
  exact h.call method arguments span span'

theorem alike_callHook (id : Nat) (name : String) (arguments : List Value) (span span' : Span) :
    RunsAlike (ev.callHook id name arguments span) (ev.callHook id name arguments span') := by
  apply RunsAlike.bind (.action (alike_attribute? _ name))
  intro hook
  cases hook with
  | none => exact .pure none
  | some hook =>
    apply RunsAlike.bind (h.call hook arguments span span')
    intro v
    exact .pure (some v)

theorem alike_truthy (v : Value) (span span' : Span) :
    RunsAlike (ev.truthy v span) (ev.truthy v span') := by
  have hplain (w : Value) :
      RunsAlike (do return (← store).isTruthy w) (do return (← store).isTruthy w) :=
    .pureOf fun _ _ hst => by rw [hst.isTruthy]
  cases v with
  | object id =>
    apply RunsAlike.bind (alike_callHook h id _ [] span span')
    intro result
    cases result with
    | none => exact .pure true
    | some result => exact hplain result
  | _ => exact hplain _

theorem alike_binary (op : BinaryOp) (lhs rhs : Value) (span span' : Span) :
    RunsAlike (ev.binary op lhs rhs span) (ev.binary op lhs rhs span') := by
  have hplain (op : BinaryOp) (lhs : Value) :
      RunsAlike (attempt (Arithmetic.binary op lhs rhs) span)
        (attempt (Arithmetic.binary op lhs rhs) span') :=
    .attempt (Arithmetic.alike_binary op lhs rhs) span span'
  have hnegate (equal : Value) : RunsAlike (do return .bool (!(← ev.truthy equal span)))
      (do return Value.bool (!(← ev.truthy equal span'))) := by
    apply RunsAlike.bind (alike_truthy h equal span span')
    intro truth
    exact .pure _
  cases lhs with
  | object id =>
    apply RunsAlike.bind (alike_callHook h id _ _ span span')
    intro result
    cases result with
    | some result => exact .pure result
    | none =>
      dsimp only
      split
      · apply RunsAlike.bind (alike_callHook h id _ _ span span')
        intro result
        cases result with
        | some result => exact .bind (.pure result) hnegate
        | none => exact .bind (hplain .eq _) hnegate
      · exact hplain op _
  | _ => exact hplain op _

theorem alike_unary (op : UnaryOp) (operand : Value) (span span' : Span) :
    RunsAlike (ev.unary op operand span) (ev.unary op operand span') := by
  cases operand with
  | object id =>
    apply RunsAlike.bind (alike_callHook h id _ _ span span')
    intro result
    cases result with
    | some result => exact .pure result
    | none =>
      dsimp only
      split
      · apply RunsAlike.bind (alike_truthy h _ span span')
        intro truth
        exact .pure _
      · exact .attempt (Arithmetic.alike_unary _ _) span span'
  | _ => exact .attempt (Arithmetic.alike_unary _ _) span span'

theorem alike_equal (lhs rhs : Value) (span span' : Span) :
    RunsAlike (ev.equal lhs rhs span) (ev.equal lhs rhs span') := by
  apply RunsAlike.bind (alike_binary h .eq lhs rhs span span')
  intro result
  exact alike_truthy h result span span'

theorem alike_getItem (object index : Value) (span span' : Span) :
    RunsAlike (ev.getItem object index span) (ev.getItem object index span') := by
  unfold getItem
  split
  · apply RunsAlike.bind (alike_intArgument index _ span span')
    intro i
    exact .attempt (Store.alike_listGet _ i) span span'
  · exact .attempt (Store.alike_dictGet _ index) span span'
  · apply RunsAlike.bind (alike_intArgument index _ span span')
    intro i
    exact .attempt (alike_charAt _ i) span span'
  · apply RunsAlike.bind (alike_callHook h _ _ _ span span')
    intro result
    cases result with
    | some v => exact .pure v
    | none => exact alike_notSubscriptable _ span span'
  · exact alike_notSubscriptable object span span'

theorem alike_setItem (object index v : Value) (span span' : Span) :
    RunsAlike (ev.setItem object index v span) (ev.setItem object index v span') := by
  unfold setItem
  split
  · apply RunsAlike.bind (alike_intArgument index _ span span')
    intro i
    exact .attempt (Store.alike_listSet _ i v) span span'
  · exact .attempt (Store.alike_dictSet _ index v) span span'
  · apply RunsAlike.bind (alike_callHook h _ _ _ span span')
    intro result
    cases result with
    | some _ => exact .pure ()
    | none => exact alike_notSubscriptable _ span span'
  · exact alike_notSubscriptable object span span'

theorem alike_advance (iterator : Value) (span span' : Span) :
    RunsAlike (ev.advance iterator span) (ev.advance iterator span') := by
  apply RunsAlike.bind (alike_callMethod h iterator _ [] span span')
  intro item
  split
  · exact .pure _
  · exact .pure _
  · exact .raiseOf (fun _ _ hst => by rw [hst.typeName]) span span'

theorem alike_instanceText (id : Nat) (quoted : Bool) (span span' : Span) :
    RunsAlike (ev.instanceText id quoted span) (ev.instanceText id quoted span') := by
  have hplain : RunsAlike (ev.instanceText id false span) (ev.instanceText id false span') := by
    apply RunsAlike.bind (alike_callHook h id _ [] span span')
    intro text
    cases text with
    | some text => exact alike_hookText text
    | none =>
      exact .pureOf fun _ _ hst => by rw [hst.instanceText]
  cases quoted with
  | false => exact hplain
  | true =>
    apply RunsAlike.bind (alike_callHook h id _ [] span span')
    intro named
    cases named with
    | some text => exact alike_hookText text
    | none => exact hplain

theorem alike_rendererValue {k k' : Container → Eval String} (hk : ∀ c, RunsAlike (k c) (k' c))
    (span span' : Span) (quoted : Bool) (v : Value) :
    RunsAlike ((ev.renderer span).value k quoted v) ((ev.renderer span').value k' quoted v) := by
  have hnamed (w : Value) :
      RunsAlike (do return (← store).named w) (do return (← store).named w) :=
    .pureOf fun _ _ hst => by rw [hst.named]
  induction v generalizing quoted with
  | list id => exact hk (.list id)
  | dict id => exact hk (.dict id)
  | item _ inner ih =>
    apply RunsAlike.bind (ih true)
    intro text
    exact .pure _
  | object id => exact alike_instanceText h id quoted span span'
  | function _ | type _ | module _ => exact hnamed _
  | _ => exact .pure _

theorem alike_rendererContainer (span span' : Span) (depth : Nat) (active : List Container)
    (c : Container) :
    RunsAlike ((ev.renderer span).container depth active c)
      ((ev.renderer span').container depth active c) := by
  induction depth generalizing active c with
  | zero =>
    unfold Renderer.container
    split
    · exact .pure _
    · exact .outOfFuel
  | succ depth ih =>
    unfold Renderer.container
    split
    · exact .pure _
    have hinner := alike_rendererValue h (ih (c :: active)) span span' true
    cases c with
    | list id =>
      apply RunsAlike.bind
      · exact .pureOf fun _ _ hst => by rw [hst.list]
      intro elements
      apply RunsAlike.bind (Mirrors.mapM hinner _)
      intro parts
      exact .pure _
    | dict id =>
      apply RunsAlike.bind
      · exact .pureOf fun _ _ hst => by rw [hst.dict]
      intro entries
      apply RunsAlike.bind
      · apply Mirrors.mapM
        intro entry
        apply RunsAlike.bind (hinner _)
        intro key
        apply RunsAlike.bind (hinner _)
        intro v
        exact .pure _
      intro parts
      exact .pure _

theorem alike_text (quoted : Bool) (v : Value) (span span' : Span) :
    RunsAlike (ev.text quoted v span) (ev.text quoted v span') :=
  alike_rendererValue h (alike_rendererContainer h span span' ev.fuel []) span span' quoted v

/-- An exception on the way to a message is dropped, whatever its place. -/
theorem alike_messageText (id : Nat) (span span' : Span) :
    RunsAlike (raiseInstance.messageText ev id span) (raiseInstance.messageText ev id span') := by
  intro m n hmn
  have htext := alike_instanceText h id false span span' m n hmn
  unfold raiseInstance.messageText
  generalize ev.instanceText id false span m = r at htext
  generalize ev.instanceText id false span' n = r' at htext
  cases htext with
  | ok hvalue hlike => exact .ok hvalue hlike
  | @error halt halt' p q hhalt hlike =>
    have hbare : halt.bare = halt'.bare := hhalt
    have htext : p.store.instanceText id = q.store.instanceText id := by
      rw [hlike.store.instanceText]
    cases halt with
    | exception e =>
      cases halt' with
      | exception f => exact .ok htext hlike
      | _ => cases hbare
    | _ =>
      cases halt' with
      | exception f => cases hbare
      | _ => exact .error hhalt hlike

theorem alike_raiseInstance {α : Type} (id : Nat) (span span' : Span) :
    RunsAlike (α := α) (ev.raiseInstance id span) (ev.raiseInstance id span') := by
  apply RunsAlike.bind (alike_messageText h id span span')
  intro message
  apply RunsAlike.get
  intro m n hmn
  apply RunsAlike.exception
  simp only [Exception.bare, hmn.calls, hmn.store.instanceClassName]

theorem alike_instantiate (type : Nat) (arguments : List Value) (span span' : Span) :
    RunsAlike (ev.instantiate type arguments span) (ev.instantiate type arguments span') := by
  have htooMany : RunsAlike (instantiate.tooMany type arguments span)
      (instantiate.tooMany type arguments span') :=
    .raiseOf (fun _ _ hst => by rw [hst.className]) span span'
  unfold instantiate
  split
  · exact .action (Store.alike_newList _)
  split
  · split
    · exact .action (Store.alike_newDict _)
    · exact htooMany
  · apply RunsAlike.bind (.action (Store.alike_newInstance type _))
    intro id
    apply RunsAlike.store
    intro s t hst
    rw [hst.attribute?]
    split
    · apply RunsAlike.bind (.action (alike_bindMethod _ _))
      intro method
      apply RunsAlike.bind (h.call method arguments span span')
      intro _
      exact .pure _
    · split
      · exact .pure _
      · exact htooMany

end Evaluator
end Rill
