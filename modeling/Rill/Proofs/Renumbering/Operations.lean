import Rill.Proofs.Renumbering.Machine

/-! Operations on values do not see that there is a function more. -/
namespace Rill

open Text (Span)
open Eval Renumbering

/-- The host does the same where there is a function more, up to the numbers of functions in what it
gets and gives. -/
def HostFunction.Oblivious (f : HostFunction) : Prop :=
  ∀ n s t, s.Renumbered n t → ∀ arguments, Below s.functions.size arguments → ∀ handles,
    f.run (renumber n arguments) t handles =
      (renumber n (f.run arguments s handles).1, (f.run arguments s handles).2)

/-- Where there is a function more, the evaluator does the same. -/
structure Evaluator.Oblivious (ev : Evaluator) : Prop where
  call : ∀ {n k callee arguments} (span : Span), Below k callee → Below k arguments →
    Runs n k (ev.call callee arguments span)
      (ev.call (renumber n callee) (renumber n arguments) span)
  block : ∀ {n k} body frame, Runs n k (ev.block body frame) (ev.block body frame)
  stray : ∀ {n k} signal, Runs n k (ev.stray signal) (ev.stray (renumber n signal))
  watch : ∀ {n k} object name sets,
    Runs n k (ev.watch object name sets) (ev.watch (renumber n object) name sets)
  hosts : ∀ f ∈ ev.settings.hosts, f.Oblivious
  honest : ∀ f ∈ ev.settings.hosts, f.Honest

namespace Evaluator

variable {n k : Nat}

theorem renumbers_bindMethod {method receiver : Value} (hmethod : Below k method)
    (hreceiver : Below k receiver) :
    Acts n k (bindMethod method receiver)
      (bindMethod (renumber n method) (renumber n receiver)) := by
  have hsome : Below k (some receiver) := below_some hreceiver
  unfold bindMethod
  cases method with
  | function id =>
    refine .get fun s t hst hk => ?_
    rw [hst.functions id]
    cases s.functions[id]? with
    | none => exact .pure rfl (hmethod.mono hk)
    | some f => exact acts_newFunction (f := { f with receiver := some receiver }) (hsome.mono hk)
  | native f | bound f _ => exact .pure rfl hreceiver
  | _ => exact .pure rfl hmethod

theorem classOf?_renumber {s t : Store} (hst : s.Renumbered n t) (v : Value) :
    classOf? t (renumber n v) = classOf? s v := by
  cases v with
  | object id => exact congrArg some (congrFun hst.typeOf id)
  | _ => rfl

/-- What a lookup gives for an attribute of the class. -/
def bindFound (v : Value) (found : Option Value) : Store.Action (Option Value) := do
  match found with
  | some method => return some (← bindMethod method v)
  | none => return none

theorem renumbers_bindFound {v : Value} {found : Option Value} (hv : Below k v)
    (hfound : Below k found) :
    Acts n k (bindFound v found) (bindFound (renumber n v) (renumber n found)) := by
  cases found with
  | none => exact .pure rfl (below_none k)
  | some method =>
    refine .bind (renumbers_bindMethod (hfound method rfl) hv) fun _ w _ hw => ?_
    exact .pure rfl (below_some hw)

theorem renumbers_attribute? {object : Value} (ho : Below k object) (name : String) :
    Acts n k (attribute? object name) (attribute? (renumber n object) name) := by
  refine .get fun s t hst hk => ?_
  have hbyClass (v : Value) (hv : Below s.functions.size v) : Acts n s.functions.size
      (bindFound v (classOf? s v >>= (s.attribute? · name)))
      (bindFound (renumber n v) (classOf? t (renumber n v) >>= (t.attribute? · name))) := by
    rw [classOf?_renumber hst]
    cases classOf? s v with
    | none => exact renumbers_bindFound hv (below_none _)
    | some type =>
      have hattribute := renumbers_bindFound (n := n) hv (hst.closed.attribute? type name)
      rwa [← hst.attribute?] at hattribute
  cases object with
  | type id => exact .pure (hst.attribute? id name) (hst.closed.attribute? id name)
  | object id =>
    have hfield := hst.field? id name
    have hattribute := hst.attribute? (s.typeOf id) name
    dsimp only [renumber, Value.renumber]
    rw [hst.typeOf, hfield, hattribute]
    cases hf : s.field? id name with
    | some field =>
      refine .pure rfl ?_
      rw [← hf]
      exact hst.closed.field? id name
    | none =>
      have hobject : Below s.functions.size (Value.object id) := trivial
      exact renumbers_bindFound hobject (hst.closed.attribute? (s.typeOf id) name)
  | _ => exact hbyClass _ (ho.mono hk)

theorem renumbers_getAttribute {object : Value} (ho : Below k object) (name : String)
    (span : Span) :
    Runs n k (getAttribute object name span) (getAttribute (renumber n object) name span) := by
  -- what is done with the attribute is left open, as it is the same for all values but modules
  have hfound {v : Value} (hv : Below k v) {f f' : Option Value → Eval Value}
      (hsome : ∀ j w, Below j w → Runs n j (f (some w)) (f' (some (renumber n w))))
      (hnone : ∀ j, Runs n j (f none) (f' none)) : Runs n k
      ((attribute? v name : Eval _) >>= f) ((attribute? (renumber n v) name : Eval _) >>= f') := by
    refine .bind (.action (renumbers_attribute? hv name)) fun j found _ hfound => ?_
    cases found with
    | some w => exact hsome j w (hfound w rfl)
    | none => exact hnone j
  unfold getAttribute
  cases object with
  | module id =>
    refine .store fun s t hst _ => ?_
    rw [hst.member?]
    cases h : s.modules[id]? >>= (·.attributes.get? name) with
    | some v => exact .pure rfl (hst.closed.member? id name v h)
    | none => exact .raiseOf (fun s t hst => by rw [hst.moduleName]) span
  | _ =>
    refine hfound ho (fun _ _ hw => .pure rfl hw) fun _ => ?_
    exact .raiseOf (fun s t hst => by rw [hst.typeName]) span

theorem renumbers_setAttribute (object : Value) (name : String) {v : Value} (hv : Below k v)
    (span : Span) :
    Runs n k (setAttribute object name v span)
      (setAttribute (renumber n object) name (renumber n v) span) := by
  have hrefuse (object : Value) : Runs n k
      (do raise (.readOnly ((← store).typeName object)) span : Eval Unit)
      (do raise (.readOnly ((← store).typeName (renumber n object))) span) :=
    .raiseOf (fun s t hst => by rw [hst.typeName]) span
  unfold setAttribute
  cases object with
  | object id => exact .action (acts_setField id name hv)
  | _ => exact hrefuse _

theorem renumbers_intArgument (v : Value) (what : String) (span : Span) :
    Runs n k (intArgument v what span) (intArgument (renumber n v) what span) := by
  have hrefuse (v : Value) : Runs n k
      (do
        invalid (what ++ " must be an int, not " ++ (← store).typeName v ++ ".") span : Eval Int64)
      (do
        invalid (what ++ " must be an int, not " ++ (← store).typeName (renumber n v) ++ ".")
          span) :=
    .invalidOf (fun s t hst => by rw [hst.typeName]) span
  unfold intArgument
  cases v with
  | int i => exact .pure rfl trivial
  | _ => exact hrefuse _

theorem renumbers_notSubscriptable {α : Type} [Carries α] (object : Value) (span : Span) :
    Runs (α := α) n k (notSubscriptable object span) (notSubscriptable (renumber n object) span) :=
  .raiseOf (fun s t hst => by rw [hst.typeName]) span

theorem renumbers_charAt (s : String) (index : Int64) :
    Tries n k (charAt s index) (charAt s index) := by
  refine .andThen (.lift _) fun _ position _ => ?_
  split
  · exact .pure rfl trivial
  · exact .throw _

theorem renumbers_hookText (v : Value) : Runs n k (hookText v) (hookText (renumber n v)) := by
  have hdisplay (v : Value) : Runs n k (do return (← store).display v)
      (do return (← store).display (renumber n v)) :=
    .pureOf fun s t hst => ⟨hst.display v, trivial⟩
  unfold hookText
  cases v with
  | str s => exact .pure rfl trivial
  | _ => exact hdisplay _

variable {ev : Evaluator} (h : ev.Oblivious)

include h

theorem renumbers_callMethod {object : Value} (ho : Below k object) (name : String)
    {arguments : List Value} (ha : Below k arguments) (span : Span) :
    Runs n k (ev.callMethod object name arguments span)
      (ev.callMethod (renumber n object) name (renumber n arguments) span) :=
  .bind (renumbers_getAttribute ho name span) fun _ _ hj hmethod =>
    h.call span hmethod (ha.mono hj)

theorem renumbers_callHook (id : Nat) (name : String) {arguments : List Value}
    (ha : Below k arguments) (span : Span) :
    Runs n k (ev.callHook id name arguments span)
      (ev.callHook id name (renumber n arguments) span) := by
  have hid : Below k (Value.object id) := trivial
  refine .bind (.action (renumbers_attribute? hid name)) fun j hook hj hhook => ?_
  cases hook with
  | none => exact .pure rfl (below_none _)
  | some hook =>
    refine .bind (h.call span (hhook hook rfl) (ha.mono hj)) fun _ v _ hv => ?_
    exact .pure rfl (below_some hv)

theorem renumbers_truthy (v : Value) (span : Span) :
    Runs n k (ev.truthy v span) (ev.truthy (renumber n v) span) := by
  have hplain (k : Nat) (w : Value) :
      Runs n k (do return (← store).isTruthy w) (do return (← store).isTruthy (renumber n w)) :=
    .pureOf fun s t hst => ⟨hst.isTruthy w, trivial⟩
  unfold truthy
  cases v with
  | object id =>
    refine .bind (renumbers_callHook h id _ below_nil span) fun _ result _ _ => ?_
    cases result with
    | none => exact .pure rfl trivial
    | some result => exact hplain _ result
  | _ => exact hplain _ _

theorem renumbers_binary (op : BinaryOp) {lhs rhs : Value} (hl : Below k lhs) (hr : Below k rhs)
    (span : Span) :
    Runs n k (ev.binary op lhs rhs span)
      (ev.binary op (renumber n lhs) (renumber n rhs) span) := by
  have hplain (k : Nat) (op : BinaryOp) (lhs : Value) :
      Runs n k (attempt (Arithmetic.binary op lhs rhs) span)
        (attempt (Arithmetic.binary op (renumber n lhs) (renumber n rhs)) span) :=
    .attempt (Arithmetic.tries_binary op lhs rhs) span
  have hnegate (k : Nat) (equal : Value) :
      Runs n k (do return .bool (!(← ev.truthy equal span)))
        (do return Value.bool (!(← ev.truthy (renumber n equal) span))) :=
    .bind (renumbers_truthy h equal span) fun _ _ _ _ => .pure rfl trivial
  have hother {k : Nat} (hr : Below k rhs) : Below k [rhs] := below_cons hr below_nil
  unfold binary
  cases lhs with
  | object id =>
    refine .bind (renumbers_callHook h id _ (hother hr) span) fun j result hj hresult => ?_
    cases result with
    | some result => exact .pure rfl (hresult result rfl)
    | none =>
      change Runs n j (if op = .ne then _ else _) (if op = .ne then _ else _)
      by_cases hne : op = .ne
      · rw [if_pos hne, if_pos hne]
        have heq := renumbers_callHook (n := n) h id BinaryOp.eq.hook (hother (hr.mono hj)) span
        refine .bind heq fun i result _ hresult => ?_
        cases result with
        | some result => exact .bind (.pure rfl (hresult result rfl)) fun _ v _ _ => hnegate _ v
        | none => exact .bind (hplain i .eq _) fun _ v _ _ => hnegate _ v
      · rw [if_neg hne, if_neg hne]
        exact hplain j op _
  | _ => exact hplain k op _

theorem renumbers_unary (op : UnaryOp) (operand : Value) (span : Span) :
    Runs n k (ev.unary op operand span) (ev.unary op (renumber n operand) span) := by
  have hplain (k : Nat) (operand : Value) :
      Runs n k (attempt (Arithmetic.unary op operand) span)
        (attempt (Arithmetic.unary op (renumber n operand)) span) :=
    .attempt (Arithmetic.tries_unary op operand) span
  unfold unary
  cases operand with
  | object id =>
    refine .bind (renumbers_callHook h id _ below_nil span) fun j result _ hresult => ?_
    cases result with
    | some result => exact .pure rfl (hresult result rfl)
    | none =>
      change Runs n j (if op = .bang then _ else _) (if op = .bang then _ else _)
      by_cases hbang : op = .bang
      · rw [if_pos hbang, if_pos hbang]
        exact .bind (renumbers_truthy h (.object id) span) fun _ _ _ _ => .pure rfl trivial
      · rw [if_neg hbang, if_neg hbang]
        exact hplain j _
  | _ => exact hplain k _

theorem renumbers_equal {lhs rhs : Value} (hl : Below k lhs) (hr : Below k rhs) (span : Span) :
    Runs n k (ev.equal lhs rhs span) (ev.equal (renumber n lhs) (renumber n rhs) span) :=
  .bind (renumbers_binary h .eq hl hr span) fun _ result _ _ => renumbers_truthy h result span

theorem renumbers_getItem (object : Value) {index : Value} (hi : Below k index) (span : Span) :
    Runs n k (ev.getItem object index span)
      (ev.getItem (renumber n object) (renumber n index) span) := by
  have hrefuse (k : Nat) (object : Value) : Runs (α := Value) n k (notSubscriptable object span)
      (notSubscriptable (renumber n object) span) :=
    renumbers_notSubscriptable object span
  unfold getItem
  cases object with
  | list id =>
    refine .bind (renumbers_intArgument index _ span) fun _ i _ _ => ?_
    exact .attempt (Store.tries_listGet id i) span
  | dict id => exact .attempt (Store.tries_dictGet id index) span
  | str s =>
    refine .bind (renumbers_intArgument index _ span) fun _ i _ _ => ?_
    exact .attempt (renumbers_charAt s i) span
  | object id =>
    have hindex : Below k [index] := below_cons hi below_nil
    refine .bind (renumbers_callHook h id _ hindex span) fun j result _ hresult => ?_
    cases result with
    | some v => exact .pure rfl (hresult v rfl)
    | none => exact hrefuse j (.object id)
  | _ => exact hrefuse k _

theorem renumbers_setItem (object : Value) {index v : Value} (hi : Below k index)
    (hv : Below k v) (span : Span) :
    Runs n k (ev.setItem object index v span)
      (ev.setItem (renumber n object) (renumber n index) (renumber n v) span) := by
  have hrefuse (k : Nat) (object : Value) : Runs (α := Unit) n k (notSubscriptable object span)
      (notSubscriptable (renumber n object) span) :=
    renumbers_notSubscriptable object span
  unfold setItem
  cases object with
  | list id =>
    refine .bind (renumbers_intArgument index _ span) fun _ i hj _ => ?_
    exact .attempt (Store.tries_listSet id i (hv.mono hj)) span
  | dict id => exact .attempt (Store.tries_dictSet id index hv) span
  | object id =>
    have hboth : Below k [index, v] := below_cons hi (below_cons hv below_nil)
    refine .bind (renumbers_callHook h id _ hboth span) fun j result _ _ => ?_
    cases result with
    | some _ => exact .pure rfl trivial
    | none => exact hrefuse j (.object id)
  | _ => exact hrefuse k _

theorem renumbers_iterate {v : Value} (hv : Below k v) (span : Span) :
    Runs n k (ev.iterate v span) (ev.iterate (renumber n v) span) :=
  renumbers_callMethod h hv "iter" below_nil span

theorem renumbers_advance {iterator : Value} (hi : Below k iterator) (span : Span) :
    Runs n k (ev.advance iterator span) (ev.advance (renumber n iterator) span) := by
  refine .bind (renumbers_callMethod h hi "next" below_nil span) fun j item _ hitem => ?_
  have hrefuse (other : Value) : Runs n j
      (do raise (.invalidIteratorItem ((← store).typeName other)) span : Eval (Option Value))
      (do raise (.invalidIteratorItem ((← store).typeName (renumber n other))) span) :=
    .raiseOf (fun s t hst => by rw [hst.typeName]) span
  cases item with
  | item id inner => exact .pure rfl (below_some hitem)
  | null => exact .pure rfl (below_none _)
  | _ => exact hrefuse _

theorem renumbers_instanceText (id : Nat) (quoted : Bool) (span : Span) :
    Runs n k (ev.instanceText id quoted span) (ev.instanceText id quoted span) := by
  have hplain (k : Nat) :
      Runs n k (ev.instanceText id false span) (ev.instanceText id false span) := by
    refine .bind (.pure rfl (below_none k)) fun j named _ _ => ?_
    cases named with
    | some text => exact renumbers_hookText text
    | none =>
      refine .bind (renumbers_callHook h id _ below_nil span) fun _ text _ _ => ?_
      cases text with
      | some text => exact renumbers_hookText text
      | none => exact .pureOf fun s t hst => ⟨congrFun hst.instanceText id, trivial⟩
  cases quoted with
  | false => exact hplain k
  | true =>
    refine .bind (renumbers_callHook h id _ below_nil span) fun j named _ _ => ?_
    cases named with
    | some text => exact renumbers_hookText text
    | none => exact hplain j

theorem renumbers_rendererValue {c c' : Container → Eval String} (span : Span)
    (hc : ∀ j container, Runs n j (c container) (c' container)) (quoted : Bool) (v : Value) :
    Runs n k ((ev.renderer span).value c quoted v)
      ((ev.renderer span).value c' quoted (renumber n v)) := by
  have hnamed (k : Nat) (w : Value) :
      Runs n k (do return (← store).named w) (do return (← store).named (renumber n w)) :=
    .pureOf fun s t hst => ⟨hst.named w, trivial⟩
  induction v generalizing k quoted with
  | list id => exact hc k (.list id)
  | dict id => exact hc k (.dict id)
  | item id inner ih => exact .bind (ih true) fun _ _ _ _ => .pure rfl trivial
  | object id => exact renumbers_instanceText h id quoted span
  | function id => exact hnamed k (.function id)
  | type id => exact hnamed k (.type id)
  | module id => exact hnamed k (.module id)
  | _ => exact .pure rfl trivial

theorem renumbers_rendererContainer (span : Span) (depth : Nat) (active : List Container)
    (c : Container) :
    Runs n k ((ev.renderer span).container depth active c)
      ((ev.renderer span).container depth active c) := by
  induction depth generalizing k active c with
  | zero =>
    unfold Renderer.container
    split
    · exact .pure rfl trivial
    · exact .outOfFuel
  | succ depth ih =>
    unfold Renderer.container
    split
    · exact .pure rfl trivial
    have hinner (j : Nat) (v : Value) :
        Runs n j
          ((ev.renderer span).value ((ev.renderer span).container depth (c :: active)) true v)
          ((ev.renderer span).value ((ev.renderer span).container depth (c :: active)) true
            (renumber n v)) :=
      renumbers_rendererValue h span (fun _ c' => ih (c :: active) c') true v
    cases c with
    | list id =>
      have hread : Runs n k ((ev.renderer span).list id) ((ev.renderer span).list id) :=
        .pureOf fun s t hst => ⟨hst.list id, hst.closed.list id⟩
      refine .bind hread fun j elements _ _ => ?_
      rw [renumber_array, Array.toList_map]
      refine .bind (.mapM fun i v _ _ => hinner i v) fun _ parts _ _ => ?_
      rw [renumber_texts]
      exact .pure rfl trivial
    | dict id =>
      have hread : Runs n k ((ev.renderer span).dict id) ((ev.renderer span).dict id) :=
        .pureOf fun s t hst => ⟨hst.dict id, hst.closed.dict id⟩
      refine .bind hread fun j entries _ _ => ?_
      rw [Table.toList_renumber]
      refine .bind (.mapM fun i e _ _ => ?_) fun _ parts _ _ => ?_
      · have hkey := hinner i e.1.toValue
        rw [Key.toValue_renumber] at hkey
        exact .bind hkey fun l _ _ _ => .bind (hinner l e.2) fun _ _ _ _ => .pure rfl trivial
      · rw [renumber_texts]
        exact .pure rfl trivial

theorem renumbers_text (quoted : Bool) (v : Value) (span : Span) :
    Runs n k (ev.text quoted v span) (ev.text quoted (renumber n v) span) :=
  renumbers_rendererValue h span (fun _ c => renumbers_rendererContainer h span ev.fuel [] c)
    quoted v

/-- An exception on the way to a message is dropped on both sides. -/
theorem renumbers_messageText (id : Nat) (span : Span) :
    Runs n k (raiseInstance.messageText ev id span) (raiseInstance.messageText ev id span) := by
  intro m m' hm hk
  have htext := renumbers_instanceText h id false span m m' hm hk
  unfold raiseInstance.messageText
  generalize ev.instanceText id false span m = r at htext
  generalize ev.instanceText id false span m' = r' at htext
  cases htext with
  | ok hb ha hafter hle => exact .ok hb ha hafter hle
  | @error halt p p' hafter hle =>
    have hinstance : p'.store.instanceText id = p.store.instanceText id :=
      congrFun hafter.store.instanceText id
    cases halt with
    | exception e => exact .ok hinstance trivial hafter hle
    | _ => exact .error hafter hle

theorem renumbers_raiseInstance {α : Type} [Carries α] (id : Nat) (span : Span) :
    Runs (α := α) n k (ev.raiseInstance id span) (ev.raiseInstance id span) := by
  refine .bind (renumbers_messageText h id span) fun _ message _ _ => .get fun m m' hm _ => ?_
  rw [hm.store.instanceClassName, hm.calls]
  exact Renumbers.throw _

theorem renumbers_instantiate (type : Nat) {arguments : List Value} (ha : Below k arguments)
    (span : Span) :
    Runs n k (ev.instantiate type arguments span)
      (ev.instantiate type (renumber n arguments) span) := by
  have htooMany (k : Nat) : Runs n k (instantiate.tooMany type arguments span)
      (instantiate.tooMany type (renumber n arguments) span) := by
    unfold instantiate.tooMany
    rw [renumber_length]
    exact .raiseOf (fun s t hst => by rw [hst.className]) span
  unfold instantiate
  rw [renumber_isEmpty]
  by_cases hlist : type = BuiltinClass.list.number
  · rw [if_pos hlist, if_pos hlist]
    rw [renumber_toArray]
    exact .action (acts_newList (below_toArray ha))
  rw [if_neg hlist, if_neg hlist]
  by_cases hdict : type = BuiltinClass.dict.number
  · rw [if_pos hdict, if_pos hdict]
    split
    · have hnew : Acts n k (Store.newDict .empty) (Store.newDict (renumber n .empty)) :=
        acts_newDict .empty
      rw [Table.empty_renumber] at hnew
      exact .action hnew
    · exact htooMany k
  rw [if_neg hdict, if_neg hdict]
  have hnew : Acts n k (Store.newInstance type .empty)
      (Store.newInstance type (renumber n .empty)) :=
    acts_newInstance type .empty
  rw [Table.empty_renumber] at hnew
  refine .andThen (.action hnew) fun j id hj => .store fun s t hst hs => ?_
  rw [hst.attribute?]
  cases hinit : s.attribute? type "__init__" with
  | none =>
    change Runs n _ (if arguments.isEmpty then _ else _) (if arguments.isEmpty then _ else _)
    split
    · exact .pure rfl trivial
    · exact htooMany _
  | some initializer =>
    have hinitializer := hst.closed.attribute? type "__init__" initializer hinit
    have hid : Below s.functions.size (Value.object id) := trivial
    refine .bind (.action (renumbers_bindMethod hinitializer hid)) fun i method hi hmethod => ?_
    refine .bind (h.call span hmethod (ha.mono (hj.trans (hs.trans hi)))) fun _ _ _ _ => ?_
    exact .pure rfl trivial

end Evaluator
end Rill
