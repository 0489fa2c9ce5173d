import Rill.Proofs.Veil.Attempts

/-! Evaluators whose calls keep to a veil do so in every operation that consults them. -/
namespace Rill

open Text (Span)
open Eval Veil

/-- What a signal brings along is known. -/
def Signal.Known (V : Veil) (s : Store) : Signal → Prop
  | .returned v => v.Known V s
  | _ => True

theorem Signal.Known.mono {V : Veil} {s t : Store} {signal : Signal} (h : signal.Known V s)
    (hst : s.Persists t) : signal.Known V t := by
  cases signal with
  | returned v => exact Value.Known.mono h hst
  | _ => trivial

/-- Code may get or set an attribute of a value: an iterator is used only through the attributes
`next` and `iter`, and those are not set. -/
def Veil.Lets (V : Veil) (object : Value) (name : String) (sets : Bool) : Prop :=
  ∀ id ∈ V.sealed, object = .object id → sets = false ∧ (name = "next" ∨ name = "iter")

theorem Veil.Lets.shows {V : Veil} {object : Value} {name : String} {sets : Bool}
    (h : V.Lets object name sets) : V.Shows object name := by
  intro id hid hobject
  rcases (h id hid hobject).2 with rfl | rfl
  · decide
  · decide

/-- An evaluator whose calls keep to a veil, if they are of known values, and so do files. It lets
no code use attributes that are kept from it, and its host makes up no values. -/
structure Veil.Governs (V : Veil) (ev : Evaluator) : Prop where
  stray : ∀ signal, ev.stray signal = pure ()
  honest : ∀ f ∈ ev.settings.hosts, f.Honest
  watch : ∀ {s : Store} (object : Value) (name : String) (sets : Bool),
    V.Runs s (fun _ _ => V.Lets object name sets) (ev.watch object name sets)
  call : ∀ {s : Store} {callee : Value} {arguments : List Value} (span : Span),
    callee.Known V s → (∀ v ∈ arguments, v.Known V s) →
      V.Runs s (Value.Known V) (ev.call callee arguments span)
  block : ∀ {s : Store} (body : List Syntax.Stmt) (frame : Nat),
    V.Runs s (Signal.Known V) (ev.block body frame)

variable {V : Veil} {s : Store}

namespace Evaluator

/-! ### Attributes -/

theorem acts_bindMethod {method receiver : Value} (hm : method.Known V s)
    (hr : receiver.Known V s) : V.Acts s (Value.Known V) (bindMethod method receiver) := by
  unfold bindMethod
  split
  · refine .bind .get fun t u hst ht hu => ?_
    subst hu
    split
    · next f hf =>
      refine acts_newFunction fun v hv => ?_
      cases hv
      exact hr.mono hst
    · exact .value (hm.mono hst)
  · exact .value (by exact hr)
  · exact .value (by exact hr)
  · exact .value hm

/-- An attribute that is found. -/
def FoundKnown (V : Veil) (t : Store) (found : Option Value) : Prop :=
  ∀ v, found = some v → v.Known V t

theorem acts_attribute? {object : Value} (h : object.Known V s) {name : String}
    (hname : V.Shows object name) : V.Acts s (FoundKnown V) (attribute? object name) := by
  -- what the class of the value has is bound to the value
  have hmethod {t : Store} (ht : t.Sound V) (hst : s.Persists t) {id : Nat} {method : Value}
      (hid : t.attribute? id name = some method) :
      V.Acts t (FoundKnown V) (do return some (← bindMethod method object)) := by
    refine .bind (acts_bindMethod (ht.attribute? hid) (h.mono hst)) fun u v _ _ hv => ?_
    exact .pure fun w huw x hx => by cases hx; exact hv.mono huw
  have hnone {t : Store} : V.Acts t (FoundKnown V) (return none) := .pure fun _ _ => nofun
  refine .bind .get fun t u hst ht hu => ?_
  subst hu
  split
  · next id => exact .pure fun w htw v hv => (ht.attribute? hv).mono htw
  · next id =>
    split
    · next v hv =>
      have hknown : v.Known V u := ht.field? hv h.2 hname
      exact .pure fun w htw x hx => by cases hx; exact hknown.mono htw
    · split
      · next method hfound => exact hmethod ht hst hfound
      · exact hnone
  · split
    · next method hfound =>
      obtain ⟨id, -, hid⟩ := Option.bind_eq_some_iff.mp hfound
      exact hmethod ht hst hid
    · exact hnone

theorem getAttribute_runs {object : Value} (h : object.Known V s) {name : String}
    (hname : V.Shows object name) (span : Span) :
    V.Runs s (Value.Known V) (getAttribute object name span) := by
  unfold getAttribute
  split
  · refine .bind .store fun t u _ ht hu => ?_
    subst hu
    split
    · next v hv => exact .value (ht.module hv)
    · exact .bind .store fun _ _ _ _ _ => .raise _ span
  · refine .bind (.action (acts_attribute? h hname)) fun t found _ _ hfound => ?_
    split
    · next v => exact .value (hfound v rfl)
    · exact .bind .store fun _ _ _ _ _ => .raise _ span

theorem setAttribute_runs {object v : Value} (h : object.Known V s) (hv : v.Known V s)
    {name : String} (hlet : V.Lets object name true) (span : Span) :
    V.Runs s Any (setAttribute object name v span) := by
  unfold setAttribute
  split
  · next id =>
    have hopen : V.Opens id name := ⟨h.2, fun hid => nomatch (hlet id hid rfl).1⟩
    exact .action (acts_setField hopen hv)
  · exact .bind .store fun _ _ _ _ _ => .raise _ span

theorem intArgument_runs (v : Value) (what : String) (span : Span) :
    V.Runs s Any (intArgument v what span) := by
  unfold intArgument
  split
  · exact .done _
  · exact .bind .store fun _ _ _ _ _ => .invalid _ span

theorem notSubscriptable_runs {α : Type} {Q : Store → α → Prop} (object : Value) (span : Span) :
    V.Runs s Q (notSubscriptable object span) :=
  .bind .store fun _ _ _ _ _ => .raise _ span

theorem tries_charAt (text : String) (index : Int64) :
    V.Tries s (Value.Known V) (charAt text index) := by
  refine .bind (.ofExcept _) fun _ _ _ _ _ => ?_
  split
  · exact .value trivial
  · exact .throw _

theorem hookText_runs (v : Value) : V.Runs s Any (hookText v) := by
  unfold hookText
  split
  · exact .done _
  · exact .bind .store fun _ _ _ _ _ => .done _

/-! ### Hooks -/

variable {ev : Evaluator} (h : V.Governs ev)

include h

theorem callMethod_runs {object : Value} {arguments : List Value} (ho : object.Known V s)
    (ha : ∀ v ∈ arguments, v.Known V s) {name : String} (hname : name ∉ iteratorFields)
    (span : Span) :
    V.Runs s (Value.Known V) (ev.callMethod object name arguments span) :=
  .bind (getAttribute_runs ho (fun _ _ _ => hname) span) fun _ _ hst _ hm =>
    h.call span hm fun v hv => (ha v hv).mono hst

theorem callHook_runs {id : Nat} {arguments : List Value} (hid : Value.Known V s (.object id))
    (ha : ∀ v ∈ arguments, v.Known V s) {name : String} (hname : name ∉ iteratorFields)
    (span : Span) :
    V.Runs s (FoundKnown V) (ev.callHook id name arguments span) := by
  refine .bind (.action (acts_attribute? hid fun _ _ _ => hname)) fun t found hst _ hfound => ?_
  cases found with
  | none => exact .pure fun _ _ => nofun
  | some hook =>
    refine .bind (h.call span (hfound hook rfl) fun v hv => (ha v hv).mono hst) fun u v _ _ hv => ?_
    exact .pure fun w huw x hx => by cases hx; exact hv.mono huw

theorem truthy_runs {v : Value} (hv : v.Known V s) (span : Span) :
    V.Runs s Any (ev.truthy v span) := by
  cases v with
  | object id =>
    have hname : "__bool__" ∉ iteratorFields := by decide
    refine .bind (callHook_runs h hv (List.forall_mem_nil _) hname span) fun _ result _ _ _ => ?_
    cases result with
    | none => exact .done _
    | some result => exact .bind .store fun _ _ _ _ _ => .done _
  | _ => exact .bind .store fun _ _ _ _ _ => .done _

theorem binary_runs {lhs rhs : Value} (hl : lhs.Known V s) (hr : rhs.Known V s) (op : BinaryOp)
    (span : Span) : V.Runs s (Value.Known V) (ev.binary op lhs rhs span) := by
  have hname (op : BinaryOp) : op.hook ∉ iteratorFields := by
    cases op <;> decide
  cases lhs with
  | object id =>
    have harguments : ∀ v ∈ [rhs], v.Known V s := List.forall_mem_singleton.mpr hr
    refine .bind (callHook_runs h hl harguments (hname op) span) fun t result hst _ hresult => ?_
    cases result with
    | some result => exact .value (hresult result rfl)
    | none =>
      dsimp only
      split
      · have hhook := callHook_runs h (hl.mono hst) (fun v hv => (harguments v hv).mono hst)
          (hname .eq) span
        refine .bind hhook fun u result _ _ hresult => ?_
        cases result with
        | some result =>
          refine .bind (.value (hresult result rfl)) fun _ _ _ _ hequal => ?_
          exact .bind (truthy_runs h hequal span) fun _ _ _ _ _ => .value trivial
        | none =>
          refine .bind (.attempt (tries_binary _ _ _) span) fun _ _ _ _ hequal => ?_
          exact .bind (truthy_runs h hequal span) fun _ _ _ _ _ => .value trivial
      · exact .attempt (tries_binary _ _ _) span
  | _ => exact .attempt (tries_binary _ _ _) span

theorem unary_runs {operand : Value} (ho : operand.Known V s) (op : UnaryOp) (span : Span) :
    V.Runs s (Value.Known V) (ev.unary op operand span) := by
  cases operand with
  | object id =>
    have hname : op.hook ∉ iteratorFields := by
      cases op <;> decide
    have hhook := callHook_runs h ho (List.forall_mem_nil _) hname span
    refine .bind hhook fun t result hst _ hresult => ?_
    cases result with
    | some result => exact .value (hresult result rfl)
    | none =>
      have ho : Value.Known V t (.object id) := ho.mono hst
      dsimp only
      split
      · exact .bind (truthy_runs h ho span) fun _ _ _ _ _ => .value trivial
      · exact .attempt (tries_unary ho op) span
  | _ => exact .attempt (tries_unary ho op) span

theorem equal_runs {lhs rhs : Value} (hl : lhs.Known V s) (hr : rhs.Known V s) (span : Span) :
    V.Runs s Any (ev.equal lhs rhs span) :=
  .bind (binary_runs h hl hr .eq span) fun _ _ _ _ hresult => truthy_runs h hresult span

theorem getItem_runs {object index : Value} (ho : object.Known V s) (hi : index.Known V s)
    (span : Span) : V.Runs s (Value.Known V) (ev.getItem object index span) := by
  unfold getItem
  split
  · exact .bind (intArgument_runs index _ span) fun _ _ _ _ _ => .attempt (tries_listGet _ _) span
  · exact .attempt (tries_dictGet _ index) span
  · exact .bind (intArgument_runs index _ span) fun _ _ _ _ _ => .attempt (tries_charAt _ _) span
  · have hname : "__getitem__" ∉ iteratorFields := by decide
    have hhook := callHook_runs h ho (List.forall_mem_singleton.mpr hi) hname span
    refine .bind hhook fun _ result _ _ hresult => ?_
    cases result with
    | some v => exact .value (hresult v rfl)
    | none => exact notSubscriptable_runs _ span
  · exact notSubscriptable_runs object span

theorem setItem_runs {object index v : Value} (ho : object.Known V s) (hi : index.Known V s)
    (hv : v.Known V s) (span : Span) : V.Runs s Any (ev.setItem object index v span) := by
  unfold setItem
  split
  · exact .bind (intArgument_runs index _ span) fun _ _ hst _ _ =>
      .attempt (tries_listSet ho.2 (hv.mono hst) _) span
  · exact .attempt (tries_dictSet hv _ index) span
  · have hname : "__setitem__" ∉ iteratorFields := by decide
    have harguments : ∀ w ∈ [index, v], w.Known V s := by simp [hi, hv]
    refine .bind (callHook_runs h ho harguments hname span) fun _ result _ _ _ => ?_
    cases result with
    | some _ => exact .done _
    | none => exact notSubscriptable_runs _ span
  · exact notSubscriptable_runs object span

theorem iterate_runs {v : Value} (hv : v.Known V s) (span : Span) :
    V.Runs s (Value.Known V) (ev.iterate v span) :=
  callMethod_runs h hv (List.forall_mem_nil _) (by decide) span

theorem advance_runs {iterator : Value} (hi : iterator.Known V s) (span : Span) :
    V.Runs s (FoundKnown V) (ev.advance iterator span) := by
  have hname : "next" ∉ iteratorFields := by decide
  refine .bind (callMethod_runs h hi (List.forall_mem_nil _) hname span) fun t item _ _ hitem => ?_
  split
  · exact .pure fun u htu v hv => by cases hv; exact Value.Known.mono hitem htu
  · exact .pure fun _ _ => nofun
  · exact .bind .store fun _ _ _ _ _ => .raise _ span

/-! ### Texts -/

theorem instanceText_runs {id : Nat} (hid : Value.Known V s (.object id)) (quoted : Bool)
    (span : Span) : V.Runs s Any (ev.instanceText id quoted span) := by
  have hhook {t : Store} (hst : s.Persists t) {name : String} (hname : name ∉ iteratorFields) :=
    callHook_runs h (hid.mono hst) (List.forall_mem_nil _) hname span
  have hplain {t : Store} (hst : s.Persists t) :
      V.Runs t Any (ev.instanceText id false span) := by
    have hname : "__str__" ∉ iteratorFields := by decide
    refine .bind (Q := fun _ named => named = none) (.pure fun _ _ => rfl) ?_
    rintro u _ htu - rfl
    refine .bind (hhook (hst.trans htu) hname) fun _ text _ _ _ => ?_
    cases text with
    | some text => exact hookText_runs text
    | none => exact .bind .store fun _ _ _ _ _ => .done _
  cases quoted with
  | false => exact hplain (.refl s)
  | true =>
    have hname : "__repr__" ∉ iteratorFields := by decide
    refine .bind (hhook (.refl s) hname) fun _ named hst _ _ => ?_
    cases named with
    | some text => exact hookText_runs text
    | none => exact hplain hst

theorem rendererValue_runs {k : Container → Eval String}
    (hk : ∀ c t, s.Persists t → t.Sound V → V.Runs t Any (k c)) (hs : s.Sound V) (span : Span)
    (quoted : Bool) {v : Value} (hv : v.Known V s) :
    V.Runs s Any ((ev.renderer span).value k quoted v) := by
  induction v generalizing quoted with
  | list id => exact hk (.list id) s (.refl s) hs
  | dict id => exact hk (.dict id) s (.refl s) hs
  | item _ inner ih => exact .bind (ih true hv) fun _ _ _ _ _ => .done _
  | object id => exact instanceText_runs h hv quoted span
  | function _ | type _ | module _ => exact .bind .store fun _ _ _ _ _ => .done _
  | _ => exact .done _

theorem rendererContainer_runs (span : Span) (depth : Nat) (active : List Container)
    (c : Container) {s : Store} (hs : s.Sound V) :
    V.Runs s Any ((ev.renderer span).container depth active c) := by
  induction depth generalizing active c s with
  | zero =>
    unfold Renderer.container
    split
    · exact .done _
    · exact .outOfFuel
  | succ depth ih =>
    unfold Renderer.container
    split
    · exact .done _
    have hinner {t : Store} (ht : t.Sound V) {v : Value} (hv : v.Known V t) : V.Runs t Any
        ((ev.renderer span).value ((ev.renderer span).container depth (c :: active)) true v) :=
      rendererValue_runs h (fun d _ _ hu => ih (c :: active) d hu) ht span true hv
    cases c with
    | list id =>
      refine .bind (Q := fun t elements => ∀ v ∈ elements, v.Known V t) ?_
        fun t elements _ ht helements => ?_
      · exact .bind .store fun t u _ ht hu => .pure fun w htw v hv =>
          (ht.list v (hu ▸ hv)).mono htw
      · refine .bind (.mapM fun v hv u htu hu => ?_) fun _ _ _ _ _ => .done _
        exact hinner hu ((helements v (Array.mem_toList_iff.mp hv)).mono htu)
    | dict id =>
      refine .bind (Q := fun t entries => entries.All fun _ v => v.Known V t) ?_
        fun t entries _ ht hentries => ?_
      · refine .bind .store fun t u _ ht hu => .pure fun w htw => ?_
        subst hu
        exact (ht.dict id).mono fun _ _ hv => hv.mono htw
      · refine .bind (.mapM fun e he u htu hu => ?_) fun _ _ _ _ _ => .done _
        have hvalue : e.2.Known V u := (hentries e (Array.mem_toList_iff.mp he)).mono htu
        refine .bind (hinner hu (Value.Known.ofKey u e.1)) fun w _ huw hw _ => ?_
        exact .bind (hinner hw (hvalue.mono huw)) fun _ _ _ _ _ => .done _

theorem text_runs (hs : s.Sound V) {v : Value} (hv : v.Known V s) (quoted : Bool) (span : Span) :
    V.Runs s Any (ev.text quoted v span) :=
  rendererValue_runs h (fun c _ _ ht => rendererContainer_runs h span ev.fuel [] c ht) hs span
    quoted hv

/-! ### Instances -/

theorem raiseInstance_runs {α : Type} {Q : Store → α → Prop} {id : Nat} (hs : s.Sound V)
    (hid : Value.Known V s (.object id))
    (hderives : s.derivesFrom (s.typeOf id) BuiltinClass.exception.number = true) (hV : V.raises)
    (span : Span) : V.Runs s Q (ev.raiseInstance id span) :=
  .raiseWith (instanceText_runs h hid false span) hid.1 hs hderives hV span

theorem instantiate_runs {type : Nat} (htype : type < s.classes.size) {arguments : List Value}
    (ha : ∀ v ∈ arguments, v.Known V s) (span : Span) :
    V.Runs s (Value.Known V) (ev.instantiate type arguments span) := by
  have htooMany {t : Store} : V.Runs t (Value.Known V) (instantiate.tooMany type arguments span) :=
    .bind .store fun _ _ _ _ _ => .raise _ span
  unfold instantiate
  split
  · exact .action (acts_newList fun v hv => ha v (List.mem_toArray.mp hv))
  split
  · split
    · exact .action (acts_newDict .empty)
    · exact htooMany
  · refine .bind (.action (acts_newInstance .empty htype)) fun t id hst _ hid => ?_
    refine .bind .store fun u _ htu hu heq => ?_
    subst heq
    have hobject := Value.Known.mono hid.1 htu
    split
    · next initializer hfound =>
      have hmethod := acts_bindMethod (hu.attribute? hfound) hobject
      refine .bind (.action hmethod) fun w method huw _ hm => ?_
      have hsw := hst.trans (htu.trans huw)
      exact .bind (h.call span hm fun v hv => (ha v hv).mono hsw) fun _ _ hwx _ _ =>
        .value (hobject.mono (huw.trans hwx))
    · split
      · exact .value hobject
      · exact htooMany

end Evaluator
end Rill
