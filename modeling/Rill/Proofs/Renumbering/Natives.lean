import Rill.Eval.Native
import Rill.Proofs.Renumbering.Operations

/-! Built-in functions, and functions of a host that is oblivious to it, do not see that there is a
function more. -/
namespace Rill

open Text (Span)
open Eval Renumbering

variable {n k : Nat}

theorem HostFunction.acts_onStore {f : HostFunction} (h : f.Oblivious) (hf : f.Honest)
    {arguments : List HostValue} (ha : Below k arguments) :
    Acts n k (f.run arguments).onStore (f.run (renumber n arguments)).onStore := by
  intro s t hst hk
  have hrun := h n s t hst arguments (ha.mono hk) s.handles
  have hbelow : Below s.functions.size (f.run arguments s s.handles).1 := by
    intro result hresult v hv
    rcases hf arguments s s.handles result hresult v hv with hmem | ⟨id, rfl⟩
    · rw [HostValue.valuesOf_eq] at hmem
      obtain ⟨argument, hargument, hmem⟩ := List.mem_flatMap.mp hmem
      exact (ha.mono hk) argument hargument v hmem
    · trivial
  change Acted n k
    ((f.run arguments s s.handles).1, { s with handles := (f.run arguments s s.handles).2 })
    ((f.run (renumber n arguments) t t.handles).1,
      { t with handles := (f.run (renumber n arguments) t t.handles).2 })
  rw [hst.handles, hrun]
  exact ⟨rfl, hbelow, { hst with closed := { hst.closed with }, handles := rfl }, hk⟩

namespace Evaluator

theorem renumbers_argument {arguments : List Value} (ha : Below k arguments) (position : Nat) :
    Runs n k (argument arguments position) (argument (renumber n arguments) position) := by
  unfold argument
  rw [renumber_at]
  cases h : arguments[position]? with
  | none => exact .defect
  | some v => exact .pure rfl (below_at ha position v h)

theorem renumbers_invalidReceiver {α : Type} [Carries α] (expected : String)
    (actual : Option Value) (span : Span) :
    Runs (α := α) n k (invalidReceiver expected actual span)
      (invalidReceiver expected (renumber n actual) span) := by
  refine .store fun s t hst _ => ?_
  have hname : (renumber n actual).map t.typeName = actual.map s.typeName := by
    cases actual with
    | none => rfl
    | some v => exact congrArg some (hst.typeName v)
  rw [hname]
  exact .invalid _ span

theorem renumbers_thisList (arguments : List Value) (span : Span) :
    Runs n k (thisList arguments span) (thisList (renumber n arguments) span) := by
  unfold thisList
  rw [renumber_head?]
  cases arguments.head? with
  | none => exact renumbers_invalidReceiver _ none span
  | some this =>
    cases this with
    | list id => exact .pure rfl trivial
    | _ => exact renumbers_invalidReceiver _ (some _) span

theorem renumbers_thisDict (arguments : List Value) (span : Span) :
    Runs n k (thisDict arguments span) (thisDict (renumber n arguments) span) := by
  unfold thisDict
  rw [renumber_head?]
  cases arguments.head? with
  | none => exact renumbers_invalidReceiver _ none span
  | some this =>
    cases this with
    | dict id => exact .pure rfl trivial
    | _ => exact renumbers_invalidReceiver _ (some _) span

theorem renumbers_thisString (arguments : List Value) (span : Span) :
    Runs n k (thisString arguments span) (thisString (renumber n arguments) span) := by
  unfold thisString
  rw [renumber_head?]
  cases arguments.head? with
  | none => exact renumbers_invalidReceiver _ none span
  | some this =>
    cases this with
    | str s => exact .pure rfl trivial
    | _ => exact renumbers_invalidReceiver _ (some _) span

theorem renumbers_thisInstance (arguments : List Value) (span : Span) :
    Runs n k (thisInstance arguments span) (thisInstance (renumber n arguments) span) := by
  unfold thisInstance
  rw [renumber_head?]
  cases arguments.head? with
  | none => exact renumbers_invalidReceiver _ none span
  | some this =>
    cases this with
    | object id => exact .pure rfl trivial
    | _ => exact renumbers_invalidReceiver _ (some _) span

theorem renumbers_newIterator {elements : Array Value} (he : Below k elements) :
    Runs n k (newIterator elements) (newIterator (renumber n elements)) := by
  refine .bind (.action (acts_newList he)) fun j items _ hitems => ?_
  have hfields : Below j (Table.ofList [("__items__", items), ("__index__", Value.int 0)]) := by
    apply Table.All.ofList
    have hindex : Below j (Value.int 0) := trivial
    simp [hitems, hindex]
  have hinstance := acts_newInstance (n := n) BuiltinClass.listIterator.number hfields
  rw [Table.ofList_renumber] at hinstance
  exact .andThen (.action hinstance) fun _ _ _ => .pure rfl trivial

/-- A new list of elements that are no functions. -/
theorem acts_newList_of_below {elements : Array Value} (he : ∀ j, Below j elements) :
    Acts n k (Store.newList elements) (Store.newList elements) := by
  have hnew := acts_newList (n := n) (he k)
  rwa [(he n).fixed] at hnew

theorem renumbers_rangeOf (start stop step : Int64) (span : Span) :
    Runs n k (rangeOf start stop step span) (rangeOf start stop step span) := by
  have hterms (terms : Array Int64) (j : Nat) : Below j (terms.map Value.int) := by
    intro v hv
    obtain ⟨i, -, rfl⟩ := Array.mem_map.mp hv
    trivial
  unfold rangeOf
  split
  · exact .invalid _ span
  split
  · exact .defect
  split
  · exact .raise _ span
  split
  · exact .defect
  · exact .action (acts_newList_of_below (hterms _))

theorem renumbers_range (arguments : List Value) (span : Span) :
    Runs n k (range arguments span) (range (renumber n arguments) span) := by
  have hbounds : Runs n k (arguments.mapM (intArgument · "Range bound" span))
      ((renumber n arguments).mapM (intArgument · "Range bound" span)) := by
    rw [renumber_list]
    exact .mapM fun _ v _ _ => renumbers_intArgument v _ span
  refine .bind hbounds fun _ bounds _ _ => ?_
  have hplain : renumber n bounds = bounds := List.map_id bounds
  rw [hplain]
  split
  · exact renumbers_rangeOf _ _ _ span
  · exact renumbers_rangeOf _ _ _ span
  · exact renumbers_rangeOf _ _ _ span
  · exact .defect

theorem renumbers_isInstance (v type : Value) (span : Span) :
    Runs n k (isInstance v type span) (isInstance (renumber n v) (renumber n type) span) := by
  refine .store fun s t hst _ => ?_
  have hrefuse (other : Value) : Runs (α := Value) n s.functions.size
      (invalid ("isinstance expects a class but got " ++ s.typeName other ++ ".") span)
      (invalid ("isinstance expects a class but got " ++ t.typeName (renumber n other) ++ ".")
        span) := by
    rw [hst.typeName]
    exact .invalid _ span
  cases type with
  | type ancestor =>
    refine .pure ?_ trivial
    rw [classOf?_renumber hst]
    have hderives : t.derivesFrom = s.derivesFrom := funext₂ hst.derivesFrom
    rw [hderives]
    rfl
  | _ => exact hrefuse _

theorem renumbers_toInt (v : Value) (span : Span) :
    Runs n k (toInt v span) (toInt (renumber n v) span) := by
  have hno (v : Value) : Runs n k (toInt.unconvertible v span)
      (toInt.unconvertible (renumber n v) span) :=
    .invalidOf (fun s t hst => by rw [hst.repr]) span
  have hinvalid (v : Value) : Runs (α := Value) n k
      (do invalid ("Invalid literal for int: " ++ (← store).repr v ++ ".") span)
      (do invalid ("Invalid literal for int: " ++ (← store).repr (renumber n v) ++ ".") span) :=
    .invalidOf (fun s t hst => by rw [hst.repr]) span
  unfold toInt
  cases v with
  | int i => exact .pure rfl trivial
  | bool b => exact .pure rfl trivial
  | float x =>
    dsimp only [renumber, Value.renumber]
    split
    · exact .pure rfl trivial
    · exact hno (.float x)
  | str s =>
    dsimp only [renumber, Value.renumber]
    split
    · exact .pure rfl trivial
    · exact hinvalid (.str s)
  | _ => exact hno _

theorem renumbers_toFloat (v : Value) (span : Span) :
    Runs n k (toFloat v span) (toFloat (renumber n v) span) := by
  have hno (v : Value) : Runs (α := Value) n k
      (do invalid ("Can't convert " ++ (← store).typeName v ++ " to float.") span)
      (do invalid ("Can't convert " ++ (← store).typeName (renumber n v) ++ " to float.") span) :=
    .invalidOf (fun s t hst => by rw [hst.typeName]) span
  have hinvalid (v : Value) : Runs (α := Value) n k
      (do invalid ("Invalid literal for float: " ++ (← store).repr v ++ ".") span)
      (do invalid ("Invalid literal for float: " ++ (← store).repr (renumber n v) ++ ".") span) :=
    .invalidOf (fun s t hst => by rw [hst.repr]) span
  unfold toFloat
  cases v with
  | int i => exact .pure rfl trivial
  | float x => exact .pure rfl trivial
  | bool b => exact .pure rfl trivial
  | str s =>
    dsimp only [renumber, Value.renumber]
    split
    · exact .pure rfl trivial
    · exact hinvalid (.str s)
  | _ => exact hno _

theorem renumbers_exit (arguments : List Value) (span : Span) :
    Runs n k (exit arguments span) (exit (renumber n arguments) span) := by
  have hend (k : Nat) (code : Int64) : Runs (α := Value) n k
      (if Int32.minValue.toInt ≤ code.toInt ∧ code.toInt ≤ Int32.maxValue.toInt
        then throw (.exit code.toInt)
        else invalid ("Exit code " ++ toString code.toInt ++ " is out of range.") span)
      (if Int32.minValue.toInt ≤ code.toInt ∧ code.toInt ≤ Int32.maxValue.toInt
        then throw (.exit code.toInt)
        else invalid ("Exit code " ++ toString code.toInt ++ " is out of range.") span) := by
    split
    · exact Renumbers.throw _
    · exact .invalid _ span
  unfold exit
  rw [renumber_head?]
  cases arguments.head? with
  | none => exact .andThen (.done 0) fun j code _ => hend j code
  | some code =>
    exact .andThen (renumbers_intArgument code _ span) fun j code _ => hend j code

theorem below_texts (texts : List String) : Below k (texts.map Value.str).toArray := by
  intro v hv
  obtain ⟨text, -, rfl⟩ := List.mem_map.mp (List.mem_toArray.mp hv)
  trivial

theorem renumbers_split (s : String) (separator : Value) (span : Span) :
    Runs n k (split s separator span) (split s (renumber n separator) span) := by
  have hlist (k : Nat) (parts : List String) : Runs n k
      (liftM (Store.newList (parts.map Value.str).toArray))
      (liftM (Store.newList ((renumber n parts).map Value.str).toArray)) := by
    rw [renumber_texts]
    exact .action (acts_newList_of_below fun _ => below_texts parts)
  have hparts (parts : List String) : Runs n k (pure parts) (pure parts) :=
    .pure (renumber_texts parts).symm fun _ _ => trivial
  have hrefuse (other : Value) : Runs n k
      (do
        let parts : List String ← invalid
          ("Separator must be a string, not " ++ (← store).typeName other ++ ".") span
        Store.newList (parts.map Value.str).toArray : Eval Value)
      (do
        let parts : List String ← invalid
          ("Separator must be a string, not " ++ (← store).typeName (renumber n other) ++ ".") span
        Store.newList (parts.map Value.str).toArray) := by
    refine .store fun s t hst _ => ?_
    rw [hst.typeName]
    exact .bind (.invalid _ span) fun j parts _ _ => hlist j parts
  unfold split
  cases separator with
  | null => exact .bind (hparts _) fun j parts _ _ => hlist j parts
  | str separator =>
    dsimp only [renumber, Value.renumber]
    split
    · exact .bind (.invalid _ span) fun j parts _ _ => hlist j parts
    · exact .bind (hparts _) fun j parts _ _ => hlist j parts
  | _ => exact hrefuse _

theorem renumbers_iteratorNext (this : Nat) (span : Span) :
    Runs n k (iteratorNext this span) (iteratorNext this span) := by
  refine .store fun s t hst _ => ?_
  have hrefuse : Runs (α := Value) n s.functions.size
      (invalidReceiver "list iterator" (some (.object this)) span)
      (invalidReceiver "list iterator" (some (.object this)) span) :=
    renumbers_invalidReceiver _ (some (.object this)) span
  have hnext (items : Nat) (index : Int64) : Runs n s.functions.size
      (if (s.list items).size ≤ index.toInt then return .null
      else do
        let element ← attempt (Store.listGet items index) span
        Store.setField this "__index__" (.int (index + 1))
        Store.newItem element)
      (if (t.list items).size ≤ index.toInt then return .null
      else do
        let element ← attempt (Store.listGet items index) span
        Store.setField this "__index__" (.int (index + 1))
        Store.newItem element) := by
    rw [hst.list, renumber_size]
    split
    · exact .pure rfl trivial
    refine .bind (.attempt (Store.tries_listGet items index) span) fun j element _ helement => ?_
    have hindex : Below j (Value.int (index + 1)) := trivial
    refine .bind (.action (acts_setField this "__index__" hindex)) fun _ _ hj _ => ?_
    exact .action (acts_newItem (helement.mono hj))
  rw [hst.field?, hst.field?]
  cases s.field? this "__items__" with
  | none => exact hrefuse
  | some items =>
    cases items with
    | list items =>
      cases s.field? this "__index__" with
      | none => exact hrefuse
      | some index =>
        cases index with
        | int index => exact hnext items index
        | _ => exact hrefuse
    | _ => exact hrefuse

theorem renumbers_dictMethod (f : DictMethod) {arguments : List Value} (ha : Below k arguments)
    (span : Span) :
    Runs n k (dictMethod f arguments span) (dictMethod f (renumber n arguments) span) := by
  refine .andThen (renumbers_thisDict arguments span) fun j this hj => ?_
  have hargument {i : Nat} (position : Nat) (hi : j ≤ i) :
      Runs n i (argument arguments position) (argument (renumber n arguments) position) :=
    renumbers_argument (ha.mono (hj.trans hi)) position
  cases f with
  | get =>
    refine .bind (hargument 1 le_rfl) fun i key hi _ => ?_
    rw [renumber_at]
    cases hfallback : arguments[2]? with
    | none => exact .attempt (Store.tries_dictGet this key) span
    | some fallback =>
      have hbelow : Below i fallback := below_at (ha.mono (hj.trans hi)) 2 fallback hfallback
      refine .bind (.attempt (Store.tries_dictGet? this key) span) fun l found hl hfound => ?_
      cases found with
      | none => exact .pure rfl (hbelow.mono hl)
      | some v => exact .pure rfl (hfound v rfl)
  | set =>
    refine .bind (hargument 1 le_rfl) fun i key hi _ => ?_
    refine .bind (hargument 2 hi) fun l v _ hv => ?_
    refine .bind (.attempt (Store.tries_dictSet this key hv) span) fun _ _ _ _ => ?_
    exact .pure rfl trivial
  | length => exact .pureOf fun s t hst => ⟨by rw [hst.dict, Table.size_renumber]; rfl, trivial⟩
  | remove =>
    refine .bind (hargument 1 le_rfl) fun i key _ _ => ?_
    exact .attempt (Store.tries_dictRemove this key) span
  | contains =>
    refine .bind (hargument 1 le_rfl) fun i key _ _ => ?_
    refine .bind (.attempt (Store.tries_dictContains this key) span) fun _ _ _ _ => ?_
    exact .pure rfl trivial
  | keys =>
    exact .bind (.action (acts_dictKeys this)) fun _ _ _ hkeys => .action (acts_newList hkeys)
  | values =>
    exact .bind (.action (acts_dictValues this)) fun _ _ _ hvalues => .action (acts_newList hvalues)
  | iter =>
    exact .bind (.action (acts_dictKeys this)) fun _ _ _ hkeys => renumbers_newIterator hkeys

theorem below_characters (s : String) : Below k (characters s) := by
  intro v hv
  obtain ⟨c, -, rfl⟩ := List.mem_map.mp (List.mem_toArray.mp hv)
  trivial

theorem renumbers_stringMethod (f : StringMethod) (arguments : List Value) (span : Span) :
    Runs n k (stringMethod f arguments span) (stringMethod f (renumber n arguments) span) := by
  refine .andThen (renumbers_thisString arguments span) fun j this _ => ?_
  cases f with
  | length | upper | lower => exact .pure rfl trivial
  | split =>
    have hseparator : (renumber n arguments)[1]?.getD .null =
        renumber n (arguments[1]?.getD .null) := by
      rw [renumber_at]
      cases arguments[1]? <;> rfl
    dsimp only
    rw [hseparator]
    exact renumbers_split this _ span
  | iter =>
    have hiterator := renumbers_newIterator (n := n) (below_characters (k := j) this)
    rwa [(below_characters (k := n) this).fixed] at hiterator

theorem renumbers_iteratorMethod (f : IteratorMethod) (arguments : List Value) (span : Span) :
    Runs n k (iteratorMethod f arguments span) (iteratorMethod f (renumber n arguments) span) := by
  refine .andThen (renumbers_thisInstance arguments span) fun j this _ => ?_
  cases f with
  | next => exact renumbers_iteratorNext this span
  | iter => exact .pure rfl trivial

variable {ev : Evaluator} (h : ev.Oblivious)

include h

theorem renumbers_print (arguments : List Value) (span : Span) :
    Runs n k (ev.print arguments span) (ev.print (renumber n arguments) span) := by
  have hparts : Runs n k (arguments.mapM (ev.text false · span))
      ((renumber n arguments).mapM (ev.text false · span)) := by
    rw [renumber_list]
    exact .mapM fun _ v _ _ => renumbers_text h false v span
  refine .bind hparts fun _ parts _ _ => ?_
  rw [renumber_texts]
  exact .bind (.print _) fun _ _ _ _ => .pure rfl trivial

theorem renumbers_raiseValue (v : Value) (span : Span) :
    Runs n k (ev.raiseValue v span) (ev.raiseValue (renumber n v) span) := by
  refine .store fun s t hst _ => ?_
  have hrefuse (v : Value) : Runs n s.functions.size (raiseValue.refuse v span s)
      (raiseValue.refuse (renumber n v) span t) := by
    unfold raiseValue.refuse
    rw [hst.typeName]
    exact .invalid _ span
  cases v with
  | str message =>
    have hfields : Below s.functions.size (Table.ofList [("message", Value.str message)]) := by
      apply Table.All.ofList
      simp [Below, Value.Below]
    have hinstance := acts_newInstance (n := n) BuiltinClass.exception.number hfields
    rw [Table.ofList_renumber] at hinstance
    exact .andThen (.action hinstance) fun _ id _ => renumbers_raiseInstance h id span
  | object id =>
    change Runs n _ (if s.derivesFrom (s.typeOf id) _ = true then _ else _)
      (if t.derivesFrom (t.typeOf id) _ = true then _ else _)
    rw [hst.derivesFrom, hst.typeOf]
    split
    · exact renumbers_raiseInstance h id span
    · exact hrefuse (.object id)
  | _ => exact hrefuse _

theorem renumbers_containsEqual {v : Value} (hv : Below k v) (span : Span) {xs : List Value}
    (hxs : Below k xs) :
    Runs n k (ev.containsEqual v span xs)
      (ev.containsEqual (renumber n v) span (renumber n xs)) := by
  induction xs generalizing k with
  | nil => exact .pure rfl trivial
  | cons x xs ih =>
    obtain ⟨hx, hxs⟩ := below_of_cons hxs
    refine .andThen (renumbers_equal h hx hv span) fun j found hj => ?_
    cases found with
    | true => exact .pure rfl trivial
    | false => exact ih (hv.mono hj) (hxs.mono hj)

theorem renumbers_mapCalls {f : Value} (hf : Below k f) (span : Span) {done : Array Value}
    (hdone : Below k done) {xs : List Value} (hxs : Below k xs) :
    Runs n k (ev.mapCalls f span done xs)
      (ev.mapCalls (renumber n f) span (renumber n done) (renumber n xs)) := by
  induction xs generalizing k done with
  | nil => exact .pure rfl hdone
  | cons x xs ih =>
    obtain ⟨hx, hxs⟩ := below_of_cons hxs
    refine .bind (h.call span hf (below_cons hx below_nil)) fun j y hj hy => ?_
    rw [← renumber_push]
    exact ih (hf.mono hj) (below_push (hdone.mono hj) hy) (hxs.mono hj)

theorem renumbers_filterCalls {f : Value} (hf : Below k f) (span : Span) {kept : Array Value}
    (hkept : Below k kept) {xs : List Value} (hxs : Below k xs) :
    Runs n k (ev.filterCalls f span kept xs)
      (ev.filterCalls (renumber n f) span (renumber n kept) (renumber n xs)) := by
  induction xs generalizing k kept with
  | nil => exact .pure rfl hkept
  | cons x xs ih =>
    obtain ⟨hx, hxs⟩ := below_of_cons hxs
    refine .bind (h.call span hf (below_cons hx below_nil)) fun j verdict hj _ => ?_
    refine .andThen (renumbers_truthy h verdict span) fun i keep hi => ?_
    have hki := hj.trans hi
    cases keep with
    | true =>
      have hpush := ih (hf.mono hki) (below_push (hkept.mono hki) (hx.mono hki)) (hxs.mono hki)
      rw [renumber_push] at hpush
      exact hpush
    | false => exact ih (hf.mono hki) (hkept.mono hki) (hxs.mono hki)

theorem renumbers_foldCalls {f : Value} (hf : Below k f) (span : Span) {acc : Value}
    (hacc : Below k acc) {xs : List Value} (hxs : Below k xs) :
    Runs n k (ev.foldCalls f span acc xs)
      (ev.foldCalls (renumber n f) span (renumber n acc) (renumber n xs)) := by
  induction xs generalizing k acc with
  | nil => exact .pure rfl hacc
  | cons x xs ih =>
    obtain ⟨hx, hxs⟩ := below_of_cons hxs
    have hboth : Below k [acc, x] := below_cons hacc (below_cons hx below_nil)
    refine .bind (h.call span hf hboth) fun j acc hj hacc => ?_
    exact ih (hf.mono hj) hacc (hxs.mono hj)

theorem renumbers_reduce {f : Value} (hf : Below k f) {initial : Option Value}
    (hinitial : Below k initial) {elements : List Value} (he : Below k elements) (span : Span) :
    Runs n k (ev.reduce f initial elements span)
      (ev.reduce (renumber n f) (renumber n initial) (renumber n elements) span) := by
  unfold reduce
  cases initial with
  | some acc => exact renumbers_foldCalls h hf span (hinitial acc rfl) he
  | none =>
    cases elements with
    | nil => exact .invalid _ span
    | cons x xs =>
      obtain ⟨hx, hxs⟩ := below_of_cons he
      exact renumbers_foldCalls h hf span hx hxs

theorem renumbers_exceptionMethod (f : ExceptionMethod) {arguments : List Value}
    (ha : Below k arguments) (span : Span) :
    Runs n k (ev.exceptionMethod f arguments span)
      (ev.exceptionMethod f (renumber n arguments) span) := by
  refine .andThen (renumbers_thisInstance arguments span) fun j this hj => ?_
  cases f with
  | init =>
    have hmessage : Below j (arguments[1]?.getD .null) ∧
        (renumber n arguments)[1]?.getD .null = renumber n (arguments[1]?.getD .null) := by
      rw [renumber_at]
      cases hfirst : arguments[1]? with
      | none => exact ⟨trivial, rfl⟩
      | some v => exact ⟨below_at (ha.mono hj) 1 v hfirst, rfl⟩
    dsimp only
    rw [hmessage.2]
    refine .bind (.action (acts_setField this "message" hmessage.1)) fun _ _ _ _ => ?_
    exact .pure rfl trivial
  | str =>
    refine .store fun s t hst _ => ?_
    rw [hst.field?]
    have htext (v : Value) : Runs n s.functions.size (do return .str (← ev.text false v span))
        (do return Value.str (← ev.text false (renumber n v) span)) :=
      .bind (renumbers_text h false v span) fun _ _ _ _ => .pure rfl trivial
    cases s.field? this "message" with
    | none => exact .pure rfl trivial
    | some message =>
      cases message with
      | null => exact .pure rfl trivial
      | _ => exact htext _

theorem renumbers_listMethod (f : ListMethod) {arguments : List Value} (ha : Below k arguments)
    (span : Span) :
    Runs n k (ev.listMethod f arguments span) (ev.listMethod f (renumber n arguments) span) := by
  refine .andThen (renumbers_thisList arguments span) fun j this hj => ?_
  have hargument {i : Nat} (position : Nat) (hi : j ≤ i) :
      Runs n i (argument arguments position) (argument (renumber n arguments) position) :=
    renumbers_argument (ha.mono (hj.trans hi)) position
  have hindex {g g' : Int64 → Eval Value} (hg : ∀ i index, j ≤ i → Runs n i (g index) (g' index)) :
      Runs n j (do g (← intArgument (← argument arguments 1) "List index" span))
        (do g' (← intArgument (← argument (renumber n arguments) 1) "List index" span)) := by
    refine .bind (hargument 1 le_rfl) fun i v hi _ => ?_
    exact .andThen (renumbers_intArgument v _ span) fun l index hl => hg l index (hi.trans hl)
  have hempty : renumber n (#[] : Array Value) = #[] := renumber_empty
  cases f with
  | get => exact hindex fun _ index _ => .attempt (Store.tries_listGet this index) span
  | set =>
    refine hindex fun i index hi => .bind (hargument 2 hi) fun _ v _ hv => ?_
    refine .bind (.attempt (Store.tries_listSet this index hv) span) fun _ _ _ _ => ?_
    exact .pure rfl trivial
  | length => exact .pureOf fun s t hst => ⟨by rw [hst.list, renumber_size]; rfl, trivial⟩
  | push =>
    refine .bind (hargument 1 le_rfl) fun _ v _ hv => ?_
    refine .bind (.attempt (Store.tries_listPush this hv) span) fun _ _ _ _ => ?_
    exact .pure rfl trivial
  | insert =>
    refine hindex fun i index hi => .bind (hargument 2 hi) fun _ v _ hv => ?_
    refine .bind (.attempt (Store.tries_listInsert this index hv) span) fun _ _ _ _ => ?_
    exact .pure rfl trivial
  | remove => exact hindex fun _ index _ => .attempt (Store.tries_listRemove this index) span
  | pop => exact .attempt (Store.tries_listPop this) span
  | contains =>
    refine .bind (hargument 1 le_rfl) fun i v _ hv => .store fun s t hst hs => ?_
    rw [hst.list, renumber_toList]
    have helements := below_toList (hst.closed.list this)
    exact .bind (renumbers_containsEqual h (hv.mono hs) span helements) fun _ _ _ _ =>
      .pure rfl trivial
  | map =>
    refine .bind (hargument 1 le_rfl) fun i f _ hf => .store fun s t hst hs => ?_
    have hmapped := renumbers_mapCalls (n := n) h (hf.mono hs) span (below_empty _)
      (below_toList (hst.closed.list this))
    rw [hempty] at hmapped
    rw [hst.list, renumber_toList]
    exact .bind hmapped fun _ _ _ hmapped => .action (acts_newList hmapped)
  | filter =>
    refine .bind (hargument 1 le_rfl) fun i f _ hf => .store fun s t hst hs => ?_
    have hkept := renumbers_filterCalls (n := n) h (hf.mono hs) span (below_empty _)
      (below_toList (hst.closed.list this))
    rw [hempty] at hkept
    rw [hst.list, renumber_toList]
    exact .bind hkept fun _ _ _ hkept => .action (acts_newList hkept)
  | reduce =>
    refine .bind (hargument 1 le_rfl) fun i f hi hf => .store fun s t hst hs => ?_
    rw [hst.list, renumber_toList, renumber_at]
    have hinitial : Below s.functions.size arguments[2]? :=
      below_at (ha.mono (hj.trans (hi.trans hs))) 2
    exact renumbers_reduce h (hf.mono hs) hinitial (below_toList (hst.closed.list this)) span
  | iter =>
    refine .store fun s t hst _ => ?_
    rw [hst.list]
    exact renumbers_newIterator (hst.closed.list this)

theorem renumbers_globalFunction (f : GlobalFunction) {arguments : List Value}
    (ha : Below k arguments) (span : Span) :
    Runs n k (ev.globalFunction f arguments span)
      (ev.globalFunction f (renumber n arguments) span) := by
  have hfirst {g g' : Value → Eval Value}
      (hg : ∀ i v, k ≤ i → Below i v → Runs n i (g v) (g' (renumber n v))) :
      Runs n k (do g (← argument arguments 0)) (do g' (← argument (renumber n arguments) 0)) :=
    .bind (renumbers_argument ha 0) hg
  have htext (quoted : Bool) (i : Nat) (v : Value) :
      Runs n i (do return Value.str (← ev.text quoted v span))
        (do return Value.str (← ev.text quoted (renumber n v) span)) :=
    .bind (renumbers_text h quoted v span) fun _ _ _ _ => .pure rfl trivial
  cases f with
  | print => exact renumbers_print h arguments span
  | str => exact hfirst fun i v _ _ => htext false i v
  | dump => exact hfirst fun i v _ _ => htext true i v
  | len | iter | next => exact hfirst fun _ v _ hv => renumbers_callMethod h hv _ below_nil span
  | item => exact hfirst fun _ v _ hv => .action (acts_newItem hv)
  | raise => exact hfirst fun _ v _ _ => renumbers_raiseValue h v span
  | exit => exact renumbers_exit arguments span
  | range => exact renumbers_range arguments span
  | type =>
    refine .store fun s t hst hs => .bind (renumbers_argument (ha.mono hs) 0) fun _ v _ _ => ?_
    rw [hst.typeName]
    exact .pure rfl trivial
  | isinstance =>
    refine .bind (renumbers_argument ha 1) fun i type hi _ => ?_
    refine .bind (renumbers_argument (ha.mono hi) 0) fun _ v _ _ => ?_
    exact renumbers_isInstance v type span
  | int => exact hfirst fun _ v _ _ => renumbers_toInt v span
  | float => exact hfirst fun _ v _ _ => renumbers_toFloat v span

theorem renumbers_builtin (b : Builtin) {arguments : List Value} (ha : Below k arguments)
    (span : Span) :
    Runs n k (ev.builtin b arguments span) (ev.builtin b (renumber n arguments) span) := by
  cases b with
  | global f => exact renumbers_globalFunction h f ha span
  | exception f => exact renumbers_exceptionMethod h f ha span
  | list f => exact renumbers_listMethod h f ha span
  | dict f => exact renumbers_dictMethod f ha span
  | string f => exact renumbers_stringMethod f arguments span
  | iterator f => exact renumbers_iteratorMethod f arguments span

theorem renumbers_hostCall (host : HostRef) {arguments : List Value} (ha : Below k arguments)
    (span : Span) :
    Runs n k (ev.hostCall host arguments span) (ev.hostCall host (renumber n arguments) span) := by
  unfold hostCall
  cases hf : ev.settings.hosts[host.number]? with
  | none => exact .pure rfl trivial
  | some f =>
    have hoblivious : f.Oblivious := h.hosts f (Array.mem_of_getElem? hf)
    have hhonest : f.Honest := h.honest f (Array.mem_of_getElem? hf)
    refine .store fun s t hst hs => ?_
    have hgiven : (renumber n arguments).map (HostValue.ofValue t) =
        renumber n (arguments.map (HostValue.ofValue s)) := by
      rw [renumber_list, renumber_list, List.map_map, List.map_map]
      exact List.map_congr_left fun v _ => HostValue.ofValue_renumber hst v
    have hbelow : Below s.functions.size (arguments.map (HostValue.ofValue s)) := by
      intro argument hargument
      obtain ⟨v, hv, rfl⟩ := List.mem_map.mp hargument
      exact HostValue.below_ofValueAt hst.closed _ (ha.mono hs v hv)
    rw [hgiven]
    have hrun := HostFunction.acts_onStore (n := n) hoblivious hhonest hbelow
    refine .bind (.action hrun) fun j result _ hresult => ?_
    cases result with
    | error message => exact .invalid _ span
    | ok result => exact .attempt (HostValue.renumbers_toValue j result (hresult result rfl)) span

theorem renumbers_native (f : Native) {receiver : Option Value} (hr : Below k receiver)
    {arguments : List Value} (ha : Below k arguments) (span : Span) :
    Runs n k (ev.native f receiver arguments span)
      (ev.native f (renumber n receiver) (renumber n arguments) span) := by
  have hall : Below k (receiver.toList ++ arguments) := by
    intro v hv
    rcases List.mem_append.mp hv with hv | hv
    · exact hr v (Option.mem_toList.mp hv)
    · exact ha v hv
  have happend : (renumber n receiver).toList ++ renumber n arguments =
      renumber n (receiver.toList ++ arguments) := by
    cases receiver with
    | none => rfl
    | some v => rfl
  have hcount : (renumber n receiver).toList.length = receiver.toList.length := by
    cases receiver with
    | none => rfl
    | some v => rfl
  unfold native
  dsimp only
  rw [happend, renumber_length, hcount, renumber_length]
  split
  · cases f with
    | builtin b => exact renumbers_builtin h b hall span
    | host host => exact renumbers_hostCall h host hall span
  · exact .raise _ span

end Evaluator
end Rill
