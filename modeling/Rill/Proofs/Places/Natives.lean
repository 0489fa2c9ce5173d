import Rill.Proofs.Places.Operations

/-! Built-in functions, and functions of a host that is blind to places, do not see them. -/
namespace Rill

open Text (Span)
open Eval

theorem HostAction.Blind.onStore {α : Type} {action : HostAction α} (h : action.Blind) :
    Store.ActsAlike action.onStore action.onStore := by
  apply Store.ActsAlike.ofBare
  intro s
  have hrun : action s.bare s.bare.handles = action s s.handles := h s s.handles
  change ((action s.bare s.bare.handles).1,
    { s.bare with handles := (action s.bare s.bare.handles).2 }) = _
  rw [hrun]
  rfl

namespace Evaluator

theorem alike_argument (arguments : List Value) (position : Nat) :
    RunsAlike (argument arguments position) (argument arguments position) := by
  unfold argument
  split
  · exact .pure _
  · exact .defect

theorem alike_invalidReceiver {α : Type} (expected : String) (actual : Option Value)
    (span span' : Span) :
    RunsAlike (α := α) (invalidReceiver expected actual span)
      (invalidReceiver expected actual span') :=
  .invalidOf (fun _ _ hst => by rw [hst.typeName]) span span'

theorem alike_thisList (arguments : List Value) (span span' : Span) :
    RunsAlike (thisList arguments span) (thisList arguments span') := by
  unfold thisList
  split
  · exact .pure _
  · exact alike_invalidReceiver _ _ span span'

theorem alike_thisDict (arguments : List Value) (span span' : Span) :
    RunsAlike (thisDict arguments span) (thisDict arguments span') := by
  unfold thisDict
  split
  · exact .pure _
  · exact alike_invalidReceiver _ _ span span'

theorem alike_thisString (arguments : List Value) (span span' : Span) :
    RunsAlike (thisString arguments span) (thisString arguments span') := by
  unfold thisString
  split
  · exact .pure _
  · exact alike_invalidReceiver _ _ span span'

theorem alike_thisInstance (arguments : List Value) (span span' : Span) :
    RunsAlike (thisInstance arguments span) (thisInstance arguments span') := by
  unfold thisInstance
  split
  · exact .pure _
  · exact alike_invalidReceiver _ _ span span'

theorem alike_newIterator (elements : Array Value) :
    RunsAlike (newIterator elements) (newIterator elements) := by
  apply RunsAlike.bind (.action (Store.alike_newList _))
  intro items
  apply RunsAlike.bind (.action (Store.alike_newInstance _ _))
  intro id
  exact .pure _

theorem alike_rangeOf (start stop step : Int64) (span span' : Span) :
    RunsAlike (rangeOf start stop step span) (rangeOf start stop step span') := by
  unfold rangeOf
  split
  · exact .invalid _ span span'
  split
  · exact .defect
  split
  · exact .raise _ span span'
  split
  · exact .defect
  · exact .action (Store.alike_newList _)

theorem alike_range (arguments : List Value) (span span' : Span) :
    RunsAlike (range arguments span) (range arguments span') := by
  apply RunsAlike.bind (Mirrors.mapM (fun v => alike_intArgument v _ span span') arguments)
  intro bounds
  split
  · exact alike_rangeOf _ _ _ span span'
  · exact alike_rangeOf _ _ _ span span'
  · exact alike_rangeOf _ _ _ span span'
  · exact .defect

theorem alike_isInstance (v type : Value) (span span' : Span) :
    RunsAlike (isInstance v type span) (isInstance v type span') := by
  apply RunsAlike.store
  intro s t hst
  have hclass : classOf? s = classOf? t := hst.congr fun _ => rfl
  rw [hst.derivesFrom, hst.typeName, hclass]
  split
  · exact .pure _
  · exact .invalid _ span span'

theorem alike_toInt (v : Value) (span span' : Span) :
    RunsAlike (toInt v span) (toInt v span') := by
  have hno : RunsAlike (toInt.unconvertible v span) (toInt.unconvertible v span') :=
    .invalidOf (fun _ _ hst => by rw [hst.repr]) span span'
  unfold toInt
  split
  · exact .pure _
  · exact .pure _
  · split
    · exact .pure _
    · exact hno
  · split
    · exact .pure _
    · exact .invalidOf (fun _ _ hst => by rw [hst.repr]) span span'
  · exact hno

theorem alike_toFloat (v : Value) (span span' : Span) :
    RunsAlike (toFloat v span) (toFloat v span') := by
  unfold toFloat
  split
  · exact .pure _
  · exact .pure _
  · exact .pure _
  · split
    · exact .pure _
    · exact .invalidOf (fun _ _ hst => by rw [hst.repr]) span span'
  · exact .invalidOf (fun _ _ hst => by rw [hst.typeName]) span span'

theorem alike_exit (arguments : List Value) (span span' : Span) :
    RunsAlike (exit arguments span) (exit arguments span') := by
  have hend (code : Int64) : RunsAlike
      (if Int32.minValue.toInt ≤ code.toInt ∧ code.toInt ≤ Int32.maxValue.toInt
        then throw (.exit code.toInt)
        else invalid ("Exit code " ++ toString code.toInt ++ " is out of range.") span : Eval Value)
      (if Int32.minValue.toInt ≤ code.toInt ∧ code.toInt ≤ Int32.maxValue.toInt
        then throw (.exit code.toInt)
        else invalid ("Exit code " ++ toString code.toInt ++ " is out of range.") span') := by
    split
    · exact Mirrors.throw rfl
    · exact .invalid _ span span'
  unfold exit
  split
  · exact .bind (.pure _) hend
  · exact .bind (alike_intArgument _ _ span span') hend

theorem alike_split (s : String) (separator : Value) (span span' : Span) :
    RunsAlike (split s separator span) (split s separator span') := by
  have hlist (parts : List String) : RunsAlike
      (liftM (Store.newList (parts.map Value.str).toArray))
      (liftM (Store.newList (parts.map Value.str).toArray)) :=
    .action (Store.alike_newList _)
  unfold split
  split
  · exact .bind (.pure _) hlist
  · split
    · exact .bind (.invalid _ span span') hlist
    · exact .bind (.pure _) hlist
  · apply RunsAlike.store
    intro s t hst
    rw [hst.typeName]
    exact .bind (.invalid _ span span') hlist

theorem alike_iteratorNext (this : Nat) (span span' : Span) :
    RunsAlike (iteratorNext this span) (iteratorNext this span') := by
  apply RunsAlike.store
  intro s t hst
  rw [hst.field?, hst.list]
  split
  · split
    · exact .pure _
    · apply RunsAlike.bind (.attempt (Store.alike_listGet _ _) span span')
      intro element
      apply RunsAlike.bind (.action (Store.alike_setField _ _ _))
      intro _
      exact .action (Store.alike_newItem element)
  · exact alike_invalidReceiver _ _ span span'

theorem alike_dictMethod (f : DictMethod) (arguments : List Value) (span span' : Span) :
    RunsAlike (dictMethod f arguments span) (dictMethod f arguments span') := by
  apply RunsAlike.bind (alike_thisDict arguments span span')
  intro this
  cases f with
  | get =>
    apply RunsAlike.bind (alike_argument arguments 1)
    intro key
    split
    · apply RunsAlike.bind (.attempt (Store.alike_dictGet? this key) span span')
      intro found
      exact .pure _
    · exact .attempt (Store.alike_dictGet this key) span span'
  | set =>
    apply RunsAlike.bind (alike_argument arguments 1)
    intro key
    apply RunsAlike.bind (alike_argument arguments 2)
    intro v
    apply RunsAlike.bind (.attempt (Store.alike_dictSet this key v) span span')
    intro _
    exact .pure _
  | length =>
    exact .pureOf fun _ _ hst => by rw [hst.dict]
  | remove =>
    apply RunsAlike.bind (alike_argument arguments 1)
    intro key
    exact .attempt (Store.alike_dictRemove this key) span span'
  | contains =>
    apply RunsAlike.bind (alike_argument arguments 1)
    intro key
    apply RunsAlike.bind (.attempt (Store.alike_dictContains this key) span span')
    intro found
    exact .pure _
  | keys =>
    apply RunsAlike.bind (.action (Store.alike_dictKeys this))
    intro keys
    exact .action (Store.alike_newList keys)
  | values =>
    apply RunsAlike.bind (.action (Store.alike_dictValues this))
    intro values
    exact .action (Store.alike_newList values)
  | iter =>
    apply RunsAlike.bind (.action (Store.alike_dictKeys this))
    intro keys
    exact alike_newIterator keys

theorem alike_stringMethod (f : StringMethod) (arguments : List Value) (span span' : Span) :
    RunsAlike (stringMethod f arguments span) (stringMethod f arguments span') := by
  apply RunsAlike.bind (alike_thisString arguments span span')
  intro this
  cases f with
  | length | upper | lower => exact .pure _
  | split => exact alike_split this _ span span'
  | iter => exact alike_newIterator _

theorem alike_iteratorMethod (f : IteratorMethod) (arguments : List Value) (span span' : Span) :
    RunsAlike (iteratorMethod f arguments span) (iteratorMethod f arguments span') := by
  apply RunsAlike.bind (alike_thisInstance arguments span span')
  intro this
  cases f with
  | next => exact alike_iteratorNext this span span'
  | iter => exact .pure _

variable {ev : Evaluator} (h : ev.Blind)

include h

theorem alike_print (arguments : List Value) (span span' : Span) :
    RunsAlike (ev.print arguments span) (ev.print arguments span') := by
  apply RunsAlike.bind (Mirrors.mapM (fun v => alike_text h false v span span') arguments)
  intro parts
  apply RunsAlike.bind (.print _)
  intro _
  exact .pure _

theorem alike_raiseValue (v : Value) (span span' : Span) :
    RunsAlike (ev.raiseValue v span) (ev.raiseValue v span') := by
  apply RunsAlike.store
  intro s t hst
  have hrefuse : RunsAlike (raiseValue.refuse v span s) (raiseValue.refuse v span' t) := by
    unfold raiseValue.refuse
    rw [hst.typeName]
    exact .invalid _ span span'
  rw [hst.derivesFrom, hst.typeOf]
  split
  · apply RunsAlike.bind (.action (Store.alike_newInstance _ _))
    intro id
    exact alike_raiseInstance h id span span'
  · split
    · exact alike_raiseInstance h _ span span'
    · exact hrefuse
  · exact hrefuse

theorem alike_containsEqual (v : Value) (span span' : Span) (xs : List Value) :
    RunsAlike (ev.containsEqual v span xs) (ev.containsEqual v span' xs) := by
  induction xs with
  | nil => exact .pure false
  | cons x xs ih =>
    apply RunsAlike.bind (alike_equal h x v span span')
    intro found
    cases found with
    | true => exact .pure true
    | false => exact ih

theorem alike_mapCalls (f : Value) (span span' : Span) (done : Array Value) (xs : List Value) :
    RunsAlike (ev.mapCalls f span done xs) (ev.mapCalls f span' done xs) := by
  induction xs generalizing done with
  | nil => exact .pure done
  | cons x xs ih =>
    apply RunsAlike.bind (h.call f [x] span span')
    intro y
    exact ih (done.push y)

theorem alike_filterCalls (f : Value) (span span' : Span) (kept : Array Value) (xs : List Value) :
    RunsAlike (ev.filterCalls f span kept xs) (ev.filterCalls f span' kept xs) := by
  induction xs generalizing kept with
  | nil => exact .pure kept
  | cons x xs ih =>
    apply RunsAlike.bind (h.call f [x] span span')
    intro verdict
    apply RunsAlike.bind (alike_truthy h verdict span span')
    intro keep
    cases keep with
    | true => exact ih (kept.push x)
    | false => exact ih kept

theorem alike_foldCalls (f : Value) (span span' : Span) (acc : Value) (xs : List Value) :
    RunsAlike (ev.foldCalls f span acc xs) (ev.foldCalls f span' acc xs) := by
  induction xs generalizing acc with
  | nil => exact .pure acc
  | cons x xs ih =>
    apply RunsAlike.bind (h.call f [acc, x] span span')
    intro acc
    exact ih acc

theorem alike_reduce (f : Value) (initial : Option Value) (elements : List Value)
    (span span' : Span) :
    RunsAlike (ev.reduce f initial elements span) (ev.reduce f initial elements span') := by
  unfold reduce
  split
  · exact alike_foldCalls h f span span' _ _
  · exact alike_foldCalls h f span span' _ _
  · exact .invalid _ span span'

theorem alike_exceptionMethod (f : ExceptionMethod) (arguments : List Value) (span span' : Span) :
    RunsAlike (ev.exceptionMethod f arguments span) (ev.exceptionMethod f arguments span') := by
  apply RunsAlike.bind (alike_thisInstance arguments span span')
  intro this
  cases f with
  | init =>
    apply RunsAlike.bind (.action (Store.alike_setField this _ _))
    intro _
    exact .pure _
  | str =>
    apply RunsAlike.store
    intro s t hst
    rw [hst.field?]
    split
    · exact .pure _
    · exact .pure _
    · apply RunsAlike.bind (alike_text h false _ span span')
      intro text
      exact .pure _

theorem alike_listMethod (f : ListMethod) (arguments : List Value) (span span' : Span) :
    RunsAlike (ev.listMethod f arguments span) (ev.listMethod f arguments span') := by
  have hindex {g g' : Int64 → Eval Value} (hg : ∀ index, RunsAlike (g index) (g' index)) :
      RunsAlike (do g (← intArgument (← argument arguments 1) "List index" span))
        (do g' (← intArgument (← argument arguments 1) "List index" span')) := by
    apply RunsAlike.bind (alike_argument arguments 1)
    intro v
    exact .bind (alike_intArgument v _ span span') hg
  apply RunsAlike.bind (alike_thisList arguments span span')
  intro this
  cases f with
  | get => exact hindex fun index => .attempt (Store.alike_listGet this index) span span'
  | set =>
    apply hindex
    intro index
    apply RunsAlike.bind (alike_argument arguments 2)
    intro v
    apply RunsAlike.bind (.attempt (Store.alike_listSet this index v) span span')
    intro _
    exact .pure _
  | length =>
    exact .pureOf fun _ _ hst => by rw [hst.list]
  | push =>
    apply RunsAlike.bind (alike_argument arguments 1)
    intro v
    apply RunsAlike.bind (.attempt (Store.alike_listPush this v) span span')
    intro _
    exact .pure _
  | insert =>
    apply hindex
    intro index
    apply RunsAlike.bind (alike_argument arguments 2)
    intro v
    apply RunsAlike.bind (.attempt (Store.alike_listInsert this index v) span span')
    intro _
    exact .pure _
  | remove => exact hindex fun index => .attempt (Store.alike_listRemove this index) span span'
  | pop => exact .attempt (Store.alike_listPop this) span span'
  | contains =>
    apply RunsAlike.bind (alike_argument arguments 1)
    intro v
    apply RunsAlike.store
    intro s t hst
    rw [hst.list]
    apply RunsAlike.bind (alike_containsEqual h v span span' _)
    intro found
    exact .pure _
  | map =>
    apply RunsAlike.bind (alike_argument arguments 1)
    intro f
    apply RunsAlike.store
    intro s t hst
    rw [hst.list]
    apply RunsAlike.bind (alike_mapCalls h f span span' #[] _)
    intro mapped
    exact .action (Store.alike_newList mapped)
  | filter =>
    apply RunsAlike.bind (alike_argument arguments 1)
    intro f
    apply RunsAlike.store
    intro s t hst
    rw [hst.list]
    apply RunsAlike.bind (alike_filterCalls h f span span' #[] _)
    intro kept
    exact .action (Store.alike_newList kept)
  | reduce =>
    apply RunsAlike.bind (alike_argument arguments 1)
    intro f
    apply RunsAlike.store
    intro s t hst
    rw [hst.list]
    exact alike_reduce h f _ _ span span'
  | iter =>
    apply RunsAlike.store
    intro s t hst
    rw [hst.list]
    exact alike_newIterator _

theorem alike_globalFunction (f : GlobalFunction) (arguments : List Value) (span span' : Span) :
    RunsAlike (ev.globalFunction f arguments span) (ev.globalFunction f arguments span') := by
  have hfirst {g g' : Value → Eval Value} (hg : ∀ v, RunsAlike (g v) (g' v)) :
      RunsAlike (do g (← argument arguments 0)) (do g' (← argument arguments 0)) :=
    .bind (alike_argument arguments 0) hg
  have htext (quoted : Bool) (v : Value) :
      RunsAlike (do return Value.str (← ev.text quoted v span))
        (do return Value.str (← ev.text quoted v span')) := by
    apply RunsAlike.bind (alike_text h quoted v span span')
    intro text
    exact .pure _
  cases f with
  | print => exact alike_print h arguments span span'
  | str => exact hfirst (htext false)
  | dump => exact hfirst (htext true)
  | len | iter | next => exact hfirst fun v => alike_callMethod h v _ [] span span'
  | item => exact hfirst fun v => .action (Store.alike_newItem v)
  | raise => exact hfirst fun v => alike_raiseValue h v span span'
  | exit => exact alike_exit arguments span span'
  | range => exact alike_range arguments span span'
  | type =>
    apply RunsAlike.store
    intro s t hst
    rw [hst.typeName]
    exact hfirst fun v => .pure _
  | isinstance =>
    apply RunsAlike.bind (alike_argument arguments 1)
    intro type
    exact hfirst fun v => alike_isInstance v type span span'
  | int => exact hfirst fun v => alike_toInt v span span'
  | float => exact hfirst fun v => alike_toFloat v span span'

theorem alike_builtin (b : Builtin) (arguments : List Value) (span span' : Span) :
    RunsAlike (ev.builtin b arguments span) (ev.builtin b arguments span') := by
  cases b with
  | global f => exact alike_globalFunction h f arguments span span'
  | exception f => exact alike_exceptionMethod h f arguments span span'
  | list f => exact alike_listMethod h f arguments span span'
  | dict f => exact alike_dictMethod f arguments span span'
  | string f => exact alike_stringMethod f arguments span span'
  | iterator f => exact alike_iteratorMethod f arguments span span'

theorem alike_hostCall (host : HostRef) (arguments : List Value) (span span' : Span) :
    RunsAlike (ev.hostCall host arguments span) (ev.hostCall host arguments span') := by
  unfold hostCall
  split
  · exact .pure _
  · next f hf =>
    have hblind : f.Blind := h.hosts f (Array.mem_of_getElem? hf)
    apply RunsAlike.store
    intro s t hst
    rw [HostValue.ofValue_like hst]
    apply RunsAlike.bind (.action (hblind _).onStore)
    intro result
    split
    · exact .attempt (HostValue.alike_toValue _) span span'
    · exact .invalid _ span span'

theorem alike_native (f : Native) (receiver : Option Value) (arguments : List Value)
    (span span' : Span) :
    RunsAlike (ev.native f receiver arguments span) (ev.native f receiver arguments span') := by
  unfold native
  dsimp only
  split
  · cases f with
    | builtin b => exact alike_builtin h b _ span span'
    | host host => exact alike_hostCall h host _ span span'
  · exact .raise _ span span'

end Evaluator
end Rill
