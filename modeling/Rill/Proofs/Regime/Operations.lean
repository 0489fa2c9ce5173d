import Rill.Eval.Tree
import Rill.Proofs.Bounds

/-! Evaluators whose calls and files go by a regime do so in every operation that consults them. -/
namespace Rill

open Text (Span)
open Eval

/-- Two evaluators whose settings differ at most in the limit to calls, and whose calls go by a
regime, and so does what looks on. Files with checked statements go by it too and end normally, and
neither evaluator minds the end of a body that ends normally. The files that can be read may be
entered. -/
structure Regime.Governs (R : Regime) (homes : Set Nat) (ev ev' : Evaluator) : Prop where
  settings : ∃ limit, ev'.settings = { ev.settings with maxCallDepth := limit }
  fuel : ev.fuel = ev'.fuel
  stray : ev.stray .normal = pure ()
  stray' : ev'.stray .normal = pure ()
  watch : ∀ object name sets,
    R.Abides homes (ev.watch object name sets) (ev'.watch object name sets)
  opens : ∀ {path : String} {program : Syntax.Program},
    Syntax.included ev.settings path = .ok program → R.Opens path
  /-- The outermost frame may get variables if it is to get those of all assignments. -/
  outermost : ev.settings.globalAssignment = true → globals ∈ homes
  call : ∀ callee arguments span,
    R.Abides homes (ev.call callee arguments span) (ev'.call callee arguments span)
  block : ∀ {homes'}, homes ⊆ homes' → ∀ body, ∀ frame ∈ homes',
    Syntax.checkAll .bare body = .ok () →
      R.AbidesWith homes' (· = .normal) (ev.block body frame) (ev'.block body frame)

variable {R : Regime} {homes : Set Nat}

/-- They go by it still if one more frame may get variables. -/
theorem Regime.Governs.enter {ev ev' : Evaluator} (h : R.Governs homes ev ev') (id : Nat) :
    R.Governs (insert id homes) ev ev' where
  settings := h.settings
  fuel := h.fuel
  stray := h.stray
  stray' := h.stray'
  watch object name sets := (h.watch object name sets).mono (Set.subset_insert id homes)
  opens := h.opens
  outermost hglobal := Set.mem_insert_of_mem id (h.outermost hglobal)
  call callee arguments span := (h.call callee arguments span).mono (Set.subset_insert id homes)
  block hsub := h.block ((Set.subset_insert id homes).trans hsub)

namespace Evaluator

theorem keeps_bindMethod (method receiver : Value) :
    Store.Keeps homes (bindMethod method receiver) fun _ => True := by
  unfold bindMethod
  split
  · refine .bind .get fun s hs => ?_
    split
    · next f hf =>
      have hdecl : f.decl.check = .ok () := hs.function hf
      exact Store.keeps_newFunction hdecl
    · exact .pure trivial
  · exact .pure trivial
  · exact .pure trivial
  · exact .pure trivial

theorem keeps_attribute? (object : Value) (name : String) :
    Store.Keeps homes (attribute? object name) fun _ => True := by
  refine .bind .get fun s _ => ?_
  split
  · exact .pure trivial
  · split
    · exact .pure trivial
    · split
      · exact .bind (keeps_bindMethod _ _) fun _ _ => .pure trivial
      · exact .pure trivial
  · split
    · exact .bind (keeps_bindMethod _ _) fun _ _ => .pure trivial
    · exact .pure trivial

theorem getAttribute_abides (object : Value) (name : String) (span : Span) :
    R.Abides homes (getAttribute object name span) (getAttribute object name span) := by
  unfold getAttribute
  split
  · refine .bind .store fun s _ => ?_
    split
    · exact .done _
    · exact .bind .store fun _ _ => .raise _ span
  · refine .bind (.action (keeps_attribute? object name)) fun found _ => ?_
    split
    · exact .done _
    · exact .bind .store fun _ _ => .raise _ span

theorem setAttribute_abides (object : Value) (name : String) (v : Value) (span : Span) :
    R.Abides homes (setAttribute object name v span) (setAttribute object name v span) := by
  unfold setAttribute
  split
  · exact .action (Store.keeps_setField _ name v)
  · exact .bind .store fun _ _ => .raise _ span

theorem intArgument_abides (v : Value) (what : String) (span : Span) :
    R.Abides homes (intArgument v what span) (intArgument v what span) := by
  unfold intArgument
  split
  · exact .done _
  · exact .bind .store fun _ _ => .invalid _ span

theorem notSubscriptable_abides {α : Type} {Q : α → Prop} (object : Value) (span : Span) :
    R.AbidesWith homes Q (notSubscriptable object span) (notSubscriptable object span) :=
  .bind .store fun _ _ => .raise _ span

theorem safe_charAt (s : String) (index : Int64) : Store.Safe (charAt s index) := by
  intro t _
  unfold charAt
  cases hr : Store.resolveIndex index s.toList.length with
  | error fault => exact ⟨.refl t, nofun⟩
  | ok position =>
    have hlift : (liftM (Except.ok (ε := Fault) position) : Store.Attempt Nat) t =
        .ok position t := rfl
    obtain ⟨c, hc⟩ : ∃ c, s.toList[position]? = some c :=
      ⟨_, List.getElem?_eq_getElem (Store.resolveIndex_lt hr)⟩
    rw [bind_of_ok hlift, hc]
    exact .refl t

theorem hookText_abides (v : Value) : R.Abides homes (hookText v) (hookText v) := by
  unfold hookText
  split
  · exact .done _
  · exact .bind .store fun _ _ => .done _

variable {ev ev' : Evaluator} (h : R.Governs homes ev ev')

include h

theorem callMethod_abides (object : Value) (name : String) (arguments : List Value) (span : Span) :
    R.Abides homes (ev.callMethod object name arguments span)
      (ev'.callMethod object name arguments span) :=
  .bind (getAttribute_abides object name span) fun method _ => h.call method arguments span

theorem callHook_abides (id : Nat) (name : String) (arguments : List Value) (span : Span) :
    R.Abides homes (ev.callHook id name arguments span) (ev'.callHook id name arguments span) := by
  refine .bind (.action (keeps_attribute? _ name)) fun hook _ => ?_
  cases hook with
  | none => exact .done _
  | some hook => exact .bind (h.call hook arguments span) fun _ _ => .done _

theorem truthy_abides (v : Value) (span : Span) :
    R.Abides homes (ev.truthy v span) (ev'.truthy v span) := by
  cases v with
  | object id =>
    refine .bind (callHook_abides h id _ [] span) fun result _ => ?_
    cases result with
    | none => exact .done _
    | some result => exact .bind .store fun _ _ => .done _
  | _ => exact .bind .store fun _ _ => .done _

theorem binary_abides (op : BinaryOp) (lhs rhs : Value) (span : Span) :
    R.Abides homes (ev.binary op lhs rhs span) (ev'.binary op lhs rhs span) := by
  cases lhs with
  | object id =>
    refine .bind (callHook_abides h id _ _ span) fun result _ => ?_
    cases result with
    | some result => exact .done _
    | none =>
      dsimp only
      split
      · refine .bind (callHook_abides h id _ _ span) fun result _ => ?_
        cases result with
        | some result =>
          exact .bind (.done _) fun equal _ =>
            .bind (truthy_abides h equal span) fun _ _ => .done _
        | none =>
          exact .bind (.attempt (Arithmetic.safe_binary _ _ _) span) fun equal _ =>
            .bind (truthy_abides h equal span) fun _ _ => .done _
      · exact .attempt (Arithmetic.safe_binary _ _ _) span
  | _ => exact .attempt (Arithmetic.safe_binary _ _ _) span

theorem unary_abides (op : UnaryOp) (operand : Value) (span : Span) :
    R.Abides homes (ev.unary op operand span) (ev'.unary op operand span) := by
  cases operand with
  | object id =>
    refine .bind (callHook_abides h id _ _ span) fun result _ => ?_
    cases result with
    | some result => exact .done _
    | none =>
      dsimp only
      split
      · exact .bind (truthy_abides h _ span) fun _ _ => .done _
      · exact .attempt (Arithmetic.safe_unary _ _) span
  | _ => exact .attempt (Arithmetic.safe_unary _ _) span

theorem equal_abides (lhs rhs : Value) (span : Span) :
    R.Abides homes (ev.equal lhs rhs span) (ev'.equal lhs rhs span) :=
  .bind (binary_abides h .eq lhs rhs span) fun result _ => truthy_abides h result span

theorem getItem_abides (object index : Value) (span : Span) :
    R.Abides homes (ev.getItem object index span) (ev'.getItem object index span) := by
  unfold getItem
  split
  · exact .bind (intArgument_abides index _ span) fun _ _ => .attempt (Store.safe_listGet _ _) span
  · exact .attempt (Store.safe_dictGet _ index) span
  · exact .bind (intArgument_abides index _ span) fun _ _ => .attempt (safe_charAt _ _) span
  · refine .bind (callHook_abides h _ _ _ span) fun result _ => ?_
    cases result with
    | some v => exact .done _
    | none => exact notSubscriptable_abides _ span
  · exact notSubscriptable_abides object span

theorem setItem_abides (object index v : Value) (span : Span) :
    R.Abides homes (ev.setItem object index v span) (ev'.setItem object index v span) := by
  unfold setItem
  split
  · exact .bind (intArgument_abides index _ span) fun _ _ =>
      .attempt (Store.safe_listSet _ _ v) span
  · exact .attempt (Store.safe_dictSet _ index v) span
  · refine .bind (callHook_abides h _ _ _ span) fun result _ => ?_
    cases result with
    | some _ => exact .done _
    | none => exact notSubscriptable_abides _ span
  · exact notSubscriptable_abides object span

theorem iterate_abides (v : Value) (span : Span) :
    R.Abides homes (ev.iterate v span) (ev'.iterate v span) :=
  callMethod_abides h v _ [] span

theorem advance_abides (iterator : Value) (span : Span) :
    R.Abides homes (ev.advance iterator span) (ev'.advance iterator span) := by
  refine .bind (callMethod_abides h iterator _ [] span) fun item _ => ?_
  split
  · exact .done _
  · exact .done _
  · exact .bind .store fun _ _ => .raise _ span

theorem instanceText_abides (id : Nat) (quoted : Bool) (span : Span) :
    R.Abides homes (ev.instanceText id quoted span) (ev'.instanceText id quoted span) := by
  have hplain : R.Abides homes (ev.instanceText id false span) (ev'.instanceText id false span) := by
    refine .bind (.pure (Q := (· = none)) rfl) ?_
    rintro _ rfl
    refine .bind (callHook_abides h id _ [] span) fun text _ => ?_
    cases text with
    | some text => exact hookText_abides text
    | none => exact .bind .store fun _ _ => .done _
  cases quoted with
  | false => exact hplain
  | true =>
    refine .bind (callHook_abides h id _ [] span) fun named _ => ?_
    cases named with
    | some text => exact hookText_abides text
    | none => exact hplain

theorem rendererValue_abides {k k' : Container → Eval String} (hk : ∀ c, R.Abides homes (k c) (k' c))
    (span : Span) (quoted : Bool) (v : Value) :
    R.Abides homes ((ev.renderer span).value k quoted v)
      ((ev'.renderer span).value k' quoted v) := by
  induction v generalizing quoted with
  | list id => exact hk (.list id)
  | dict id => exact hk (.dict id)
  | item _ inner ih => exact .bind (ih true) fun _ _ => .done _
  | object id => exact instanceText_abides h id quoted span
  | function _ | type _ | module _ => exact .bind .store fun _ _ => .done _
  | _ => exact .done _

theorem rendererContainer_abides (span : Span) (depth : Nat) (active : List Container)
    (c : Container) :
    R.Abides homes ((ev.renderer span).container depth active c)
      ((ev'.renderer span).container depth active c) := by
  induction depth generalizing active c with
  | zero =>
    unfold Renderer.container
    split
    · exact .done _
    · exact .outOfFuel
  | succ depth ih =>
    unfold Renderer.container
    split
    · exact .done _
    have hinner : ∀ v, R.Abides homes
        ((ev.renderer span).value ((ev.renderer span).container depth (c :: active)) true v)
        ((ev'.renderer span).value ((ev'.renderer span).container depth (c :: active)) true v) :=
      rendererValue_abides h (ih (c :: active)) span true
    cases c with
    | list id =>
      refine .bind (.bind .store fun _ _ => .done _) fun elements _ => ?_
      exact .bind (.mapM hinner _) fun _ _ => .done _
    | dict id =>
      refine .bind (.bind .store fun _ _ => .done _) fun entries _ => ?_
      refine .bind (.mapM (fun entry => ?_) _) fun _ _ => .done _
      exact .bind (hinner _) fun _ _ => .bind (hinner _) fun _ _ => .done _

theorem text_abides (quoted : Bool) (v : Value) (span : Span) :
    R.Abides homes (ev.text quoted v span) (ev'.text quoted v span) := by
  unfold text
  rw [← h.fuel]
  exact rendererValue_abides h (rendererContainer_abides h span ev.fuel []) span quoted v

theorem raiseInstance_abides {α : Type} {Q : α → Prop} (id : Nat) (span : Span) :
    R.AbidesWith homes Q (ev.raiseInstance id span) (ev'.raiseInstance id span) :=
  .raiseWith (instanceText_abides h id false span) id span

theorem instantiate_abides (type : Nat) (arguments : List Value) (span : Span) :
    R.Abides homes (ev.instantiate type arguments span) (ev'.instantiate type arguments span) := by
  have htooMany : R.Abides homes (instantiate.tooMany type arguments span)
      (instantiate.tooMany type arguments span) :=
    .bind .store fun _ _ => .raise _ span
  unfold instantiate
  split
  · exact .action (Store.keeps_newList _)
  split
  · split
    · exact .action (Store.keeps_newDict .empty)
    · exact htooMany
  · refine .bind (.action (Store.keeps_newInstance type _)) fun id _ => .bind .store fun s _ => ?_
    split
    · refine .bind (.action (keeps_bindMethod _ _)) fun method _ => ?_
      exact .bind (h.call method arguments span) fun _ _ => .done _
    · split
      · exact .done _
      · exact htooMany

end Evaluator
end Rill
