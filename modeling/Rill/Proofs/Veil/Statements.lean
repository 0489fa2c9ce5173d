import Rill.Eval.Call
import Rill.Proofs.Regime.Runs
import Rill.Proofs.Veil.Natives

/-! Code keeps to a veil, and so do calls. -/
namespace Rill

open Text (Span)
open Eval Veil

variable {V : Veil} {s : Store}

namespace Syntax

/-! ### Variables and declarations -/

theorem readVariable_runs (env : Nat) (name : String) (span : Span) :
    V.Runs s (Value.Known V) (readVariable env name span) := by
  refine .bind .store fun t u _ ht hu => ?_
  subst hu
  split
  · next v hv => exact .value (ht.read? hv)
  · exact .raise _ span

theorem writeVariable_runs (settings : Settings) (env : Nat) (name : String) {v : Value}
    (hv : v.Known V s) : V.Runs s Any (writeVariable settings env name v) := by
  refine .bind .store fun t _ hst _ _ => ?_
  have hv : v.Known V t := hv.mono hst
  split
  · exact .action (acts_bind hv env name)
  split
  · exact .action (acts_bind hv globals name)
  refine .bind (.action (acts_assign hv env name)) fun _ found htu _ _ => ?_
  split
  · exact .action (acts_bind (hv.mono htu) env name)
  · exact .done _

theorem Atom.eval_runs (env : Nat) (span : Span) (a : Atom) :
    V.Runs s (Value.Known V) (a.eval env span) := by
  cases a with
  | var name => exact readVariable_runs env name span
  | _ => exact .value trivial

theorem FunctionDecl.acts_close (decl : FunctionDecl) (env : Nat) :
    V.Acts s (Value.Known V) (decl.close env) :=
  .bind (acts_capture env) fun _ _ _ _ _ => acts_newFunction nofun

theorem FunctionDecl.declare_runs (decl : FunctionDecl) (settings : Settings) (env : Nat) :
    V.Runs s Any (decl.declare settings env) :=
  .bind .store fun _ _ _ _ _ => .bind (.action (acts_bind (.null _) _ _)) fun _ _ _ _ _ =>
    .bind (.action (decl.acts_close env)) fun _ _ _ _ hv => .action (acts_bind hv _ _)

theorem acts_methodOf {v : Value} (hv : v.Known V s) : V.Acts s (Value.Known V) (methodOf v) := by
  unfold methodOf
  split
  · refine .bind .get fun t u hst ht hu => ?_
    subst hu
    split
    · next f hf =>
      exact acts_newFunction (f := { f with isMethod := true })
        (ht.contents.functions f (Array.mem_of_getElem? hf))
    · exact .value (hv.mono hst)
  · exact .value hv

theorem acts_methods {entries : List (String × Value)} (h : ∀ e ∈ entries, e.2.Known V s) :
    V.Acts s (fun t es => ∀ e ∈ es, e.2.Known V t)
      (entries.mapM fun (key, v) => do return (key, ← methodOf v)) := by
  induction entries generalizing s with
  | nil => exact .pure fun _ _ => List.forall_mem_nil _
  | cons e entries ih =>
    obtain ⟨he, hes⟩ := List.forall_mem_cons.mp h
    rw [List.mapM_cons]
    refine .bind (Q := fun t e => e.2.Known V t) ?_ fun t entry hst _ hentry => ?_
    · exact .bind (acts_methodOf he) fun _ _ _ _ hv => .pure fun _ htu => hv.mono htu
    · refine .bind (ih fun e he => (hes e he).mono hst) fun u rest htu _ hrest => ?_
      refine .pure fun w huw => List.forall_mem_cons.mpr ⟨hentry.mono (htu.trans huw), ?_⟩
      exact fun e he => (hrest e he).mono huw

theorem acts_harvestClass (env body : Nat) (name : String) {superclass : Nat}
    (h : superclass < s.classes.size) : V.Acts s Any (harvestClass env body name superclass) := by
  refine .bind .get fun t u hst ht hu => ?_
  subst hu
  refine .bind (acts_methods (ht.bindings body)) fun w attributes huw _ hattributes => ?_
  have hparent : superclass < w.classes.size := h.trans_le (hst.trans huw).classes_size
  exact .bind (acts_newClass (.ofList hattributes) rfl hparent) fun _ _ _ _ htype =>
    acts_bind htype env name

theorem acts_harvestModule (env body : Nat) (name : String) :
    V.Acts s Any (harvestModule env body name) := by
  refine .bind .get fun t u _ ht hu => ?_
  subst hu
  exact .bind (acts_newModule (.ofList (ht.bindings body))) fun _ _ _ _ hmodule =>
    acts_bind hmodule env name

theorem superclassOf_runs {v : Value} (hv : v.Known V s) (span : Span) :
    V.Runs s (fun t id => id < t.classes.size) (superclassOf v span) := by
  unfold superclassOf
  split
  · exact .pure fun t hst => Value.Known.mono hv hst
  · exact .bind .store fun _ _ _ _ _ => .raise _ span

/-! ### Loops -/

theorem whileLoop_runs {test : Eval Bool} {body : Eval Signal} {step : Eval Unit}
    (ht : V.Runs s Any test) (hb : V.Runs s (Signal.Known V) body) (hs : V.Runs s Any step)
    (fuel : Nat) (check : Bool) :
    V.Runs s (Signal.Known V) (whileLoop test body step fuel check) := by
  induction fuel generalizing s check with
  | zero => exact .outOfFuel
  | succ fuel ih =>
    have htest : V.Runs s Any (if check then test else pure true) := by
      cases check with
      | true => exact ht
      | false => exact .done true
    unfold whileLoop
    refine .bind htest fun t more hst _ _ => ?_
    split
    · refine .bind (hb.mono hst) fun u signal htu _ hsignal => ?_
      have hsu := hst.trans htu
      cases signal with
      | breakLoop => exact .pure fun _ _ => trivial
      | returned v => exact .pure fun _ huw => Signal.Known.mono hsignal huw
      | normal | continueLoop =>
        refine .bind (hs.mono hsu) fun w _ huw _ _ => ?_
        have hsw := hsu.trans huw
        exact ih (ht.mono hsw) (hb.mono hsw) (hs.mono hsw) true
    · exact .pure fun _ _ => trivial

theorem forLoop_runs {next : Eval (Option Value)} {bind : Value → Eval Unit} {body : Eval Signal}
    (hn : V.Runs s (Evaluator.FoundKnown V) next)
    (hbind : ∀ v t, v.Known V t → V.Runs t Any (bind v)) (hb : V.Runs s (Signal.Known V) body)
    (fuel : Nat) : V.Runs s (Signal.Known V) (forLoop next bind body fuel) := by
  induction fuel generalizing s with
  | zero => exact .outOfFuel
  | succ fuel ih =>
    refine .bind hn fun t v hst _ hv => ?_
    cases v with
    | none => exact .pure fun _ _ => trivial
    | some v =>
      refine .bind (hbind v t (hv v rfl)) fun u _ htu _ _ => ?_
      refine .bind (hb.mono (hst.trans htu)) fun w signal huw _ hsignal => ?_
      have hsw := hst.trans (htu.trans huw)
      cases signal with
      | breakLoop => exact .pure fun _ _ => trivial
      | returned v => exact .pure fun _ hwx => Signal.Known.mono hsignal hwx
      | normal | continueLoop => exact ih (hn.mono hsw) (hb.mono hsw)

variable {ev : Evaluator} (h : V.Governs ev)

include h

theorem includeFile_runs (env : Nat) (path : String) (span : Span) :
    V.Runs s Any (includeFile ev env path span) := by
  unfold includeFile
  refine .bind .get fun _ _ _ _ _ => ?_
  split
  · exact .raise _ span
  split
  · exact .raise _ span
  · next program _ =>
    refine .bind (.inInclude (h.block program env) path) fun _ signal _ _ _ => ?_
    rw [h.stray]
    exact .done ()

theorem createInstance_runs {type : Value} (ht : type.Known V s) {arguments : List Value}
    (ha : ∀ v ∈ arguments, v.Known V s) (span : Span) :
    V.Runs s (Value.Known V) (createInstance ev type arguments span) := by
  unfold createInstance
  split
  · exact Evaluator.instantiate_runs h ht ha span
  · exact .bind .store fun _ _ _ _ _ => .invalid _ span

theorem combine_runs (op : AssignOp) {old value : Eval Value}
    (ho : V.Runs s (Value.Known V) old) (hv : V.Runs s (Value.Known V) value) (span : Span) :
    V.Runs s (Value.Known V) (combine ev op old value span) := by
  cases op with
  | plain => exact hv
  | inPlace op =>
    refine .bind ho fun t current hst _ hcurrent => ?_
    refine .bind (hv.mono hst) fun u v htu _ hv => ?_
    exact Evaluator.binary_runs h (hcurrent.mono htu) hv op span

omit h

/-! ### Expressions -/

mutual

theorem Expr.eval_runs (h : V.Governs ev) (env : Nat) {s : Store} :
    (e : Expr) → V.Runs s (Value.Known V) (e.eval ev env)
  | .atom a span => Atom.eval_runs env span a
  | .group inner _ => inner.eval_runs h env
  | .sequence parts _ => evalLast_runs h env (.null _) parts
  | .unary op operand span =>
    .bind (operand.eval_runs h env) fun _ _ _ _ hv => Evaluator.unary_runs h hv op span
  | .binary op lhs rhs span =>
    .bind (lhs.eval_runs h env) fun _ _ _ _ hl =>
      .bind (rhs.eval_runs h env) fun _ _ htu _ hr =>
        Evaluator.binary_runs h (hl.mono htu) hr op span
  | .logic op lhs rhs span => by
    refine .bind (lhs.eval_runs h env) fun _ _ _ _ hl => ?_
    refine .bind (Evaluator.truthy_runs h hl span) fun _ _ htu _ _ => ?_
    split
    · exact .value (hl.mono htu)
    · exact rhs.eval_runs h env
  | .assign op target value span =>
    target.assign_runs h env op (fun _ _ => value.eval_runs h env) span
  | .call callee arguments span =>
    .bind (callee.eval_runs h env) fun _ _ _ _ hf =>
      .bind (evalAll_runs h env arguments) fun _ _ htu _ hvs => h.call span (hf.mono htu) hvs
  | .create type arguments span =>
    .bind (type.eval_runs h env) fun _ _ _ _ ht =>
      .bind (evalAll_runs h env arguments) fun _ _ htu _ hvs =>
        createInstance_runs h (ht.mono htu) hvs span
  | .subscript object index span =>
    .bind (object.eval_runs h env) fun _ _ _ _ ho =>
      .bind (index.eval_runs h env) fun _ _ htu _ hi =>
        Evaluator.getItem_runs h (ho.mono htu) hi span
  | .attr object name span =>
    .bind (object.eval_runs h env) fun _ o _ _ ho =>
      .bind (h.watch o name.name false) fun _ _ htu _ hlet =>
        Evaluator.getAttribute_runs (ho.mono htu) hlet.shows span
  | .function decl => .action (decl.acts_close env)
  | .list elements _ =>
    .bind (evalAll_runs h env elements) fun _ _ _ _ hvs =>
      .action (acts_newList fun v hv => hvs v (List.mem_toArray.mp hv))
  | .dict entries span =>
    .bind (evalEntries_runs h env span .empty entries) fun _ _ _ _ htable =>
      .action (acts_newDict htable)

theorem Target.assign_runs (h : V.Governs ev) (env : Nat) (op : AssignOp) {value : Eval Value}
    {s : Store} (hv : ∀ t, s.Persists t → V.Runs t (Value.Known V) value) (span : Span) :
    (t : Target) → V.Runs s (Value.Known V) (t.assign ev env op value span)
  | .var name => by
    have hcombine := combine_runs h op (readVariable_runs env name.name name.span) (hv s (.refl s))
      span
    refine .bind hcombine fun _ v _ _ hv => ?_
    exact .bind (writeVariable_runs ev.settings env _ hv) fun _ _ hst _ _ => .value (hv.mono hst)
  | .attr object name _ => by
    refine .bind (object.eval_runs h env) fun t o hst _ ho => ?_
    refine .bind (h.watch o name.name true) fun u _ htu _ hlet => ?_
    have ho : o.Known V u := ho.mono htu
    have hcombine := combine_runs h op (Evaluator.getAttribute_runs ho hlet.shows span)
      (hv u (hst.trans htu)) span
    refine .bind hcombine fun _ v huw _ hv => ?_
    exact .bind (Evaluator.setAttribute_runs (ho.mono huw) hv hlet span) fun _ _ hwx _ _ =>
      .value (hv.mono hwx)
  | .subscript object index _ => by
    refine .bind (object.eval_runs h env) fun t o hst _ ho => ?_
    refine .bind (index.eval_runs h env) fun u i htu _ hi => ?_
    have ho : o.Known V u := ho.mono htu
    have hcombine := combine_runs h op (Evaluator.getItem_runs h ho hi span)
      (hv u (hst.trans htu)) span
    refine .bind hcombine fun _ v huw _ hv => ?_
    exact .bind (Evaluator.setItem_runs h (ho.mono huw) (hi.mono huw) hv span) fun _ _ hwx _ _ =>
      .value (hv.mono hwx)

theorem evalAll_runs (h : V.Governs ev) (env : Nat) {s : Store} :
    (es : List Expr) →
      V.Runs s (fun t vs => ∀ v ∈ vs, v.Known V t) (evalAll ev env es)
  | [] => .pure fun _ _ => List.forall_mem_nil _
  | e :: es => by
    refine .bind (e.eval_runs h env) fun _ v _ _ hv => ?_
    refine .bind (evalAll_runs h env es) fun _ vs htu _ hvs => ?_
    refine .pure fun _ huw => List.forall_mem_cons.mpr ⟨hv.mono (htu.trans huw), ?_⟩
    exact Value.Known.all_mono hvs huw

theorem evalLast_runs (h : V.Governs ev) (env : Nat) {last : Value} {s : Store}
    (hl : last.Known V s) : (es : List Expr) → V.Runs s (Value.Known V) (evalLast ev env last es)
  | [] => .value hl
  | e :: es => .bind (e.eval_runs h env) fun _ _ _ _ hv => evalLast_runs h env hv es

theorem evalEntries_runs (h : V.Governs ev) (env : Nat) (span : Span) {table : Table Key Value}
    {s : Store} (ht : table.All fun _ v => v.Known V s) :
    (es : List (Expr × Expr)) →
      V.Runs s (fun t table => table.All fun _ v => v.Known V t) (evalEntries ev env span table es)
  | [] => .pure fun _ hst => ht.mono fun _ _ hv => hv.mono hst
  | (key, value) :: es => by
    refine .bind (key.eval_runs h env) fun t k hst _ _ => ?_
    refine .bind (value.eval_runs h env) fun u v htu _ hv => ?_
    refine .bind (.attempt (tries_key k) span) fun w k huw _ _ => ?_
    have hsw := hst.trans (htu.trans huw)
    have htable : (table.put k v).All fun _ v => v.Known V w :=
      (ht.mono fun _ _ hv => hv.mono hsw).put (hv.mono huw)
    exact evalEntries_runs h env span htable es

end

include h

theorem evalOption_runs (env : Nat) (e : Option Expr) :
    V.Runs s (Value.Known V) (evalOption ev env e) := by
  cases e with
  | none => exact .value trivial
  | some e => exact e.eval_runs h env

theorem holds_runs (env : Nat) (e : Option Expr) :
    V.Runs s Any (holds ev env e) := by
  cases e with
  | none => exact .done _
  | some e =>
    exact .bind (e.eval_runs h env) fun _ _ _ _ hv => Evaluator.truthy_runs h hv e.span

theorem evalSuperclass_runs (hs : s.Sound V) (env : Nat) (e : Option Expr) :
    V.Runs s (fun t id => id < t.classes.size) (evalSuperclass ev env e) := by
  cases e with
  | none => exact .pure fun t hst => (hs.builtin_lt .object).trans_le hst.classes_size
  | some e => exact .bind (e.eval_runs h env) fun _ _ _ _ hv => superclassOf_runs hv e.span

omit h

/-! ### Statements -/

mutual

theorem Stmt.exec_runs (h : V.Governs ev) (env : Nat) {s : Store} :
    (stmt : Stmt) → V.Runs s (Signal.Known V) (stmt.exec ev env)
  | .functionDecl decl =>
    .bind (decl.declare_runs ev.settings env) fun _ _ _ _ _ => .pure fun _ _ => trivial
  | .moduleDecl name body _ =>
    .bind (.action (acts_newFrame _)) fun _ inner _ _ _ =>
      .bind (execAll_runs h inner body) fun _ signal _ _ _ => by
        rw [h.stray]
        refine .bind (.done ()) fun _ _ _ _ _ => ?_
        exact .bind (.action (acts_harvestModule env inner name.name)) fun _ _ _ _ _ =>
          .pure fun _ _ => trivial
  | .classDecl name superclass body _ => by
    intro m hsm hm
    refine ((evalSuperclass_runs h hm env superclass).now hm).bind hm fun t parent _ _ hparent => ?_
    refine .bind (.action (acts_newFrame _)) fun u inner htu _ _ => ?_
    refine .bind (execAll_runs h inner body) fun w signal huw _ _ => ?_
    rw [h.stray]
    refine .bind (.done ()) fun x _ hwx _ _ => ?_
    have hparent : parent < x.classes.size :=
      hparent.trans_le (htu.trans (huw.trans hwx)).classes_size
    exact .bind (.action (acts_harvestClass env inner name.name hparent)) fun _ _ _ _ _ =>
      .pure fun _ _ => trivial
  | .block body _ => execAll_runs h env body
  | .includeFile path span =>
    .bind (includeFile_runs h env path span) fun _ _ _ _ _ => .pure fun _ _ => trivial
  | .expr value =>
    .bind (value.eval_runs h env) fun _ _ _ _ _ => .pure fun _ _ => trivial
  | .ifElse condition success failure _ => by
    have hholds : V.Runs s Any (holds ev env (some condition)) := holds_runs h env _
    refine .bind hholds fun _ truth _ _ _ => ?_
    split
    · exact execAll_runs h env success
    · exact execBranch_runs h env failure
  | .loop condition body step testAfter _ => by
    have hstep : V.Runs s Any (do let _ ← evalOption ev env step) :=
      .bind (evalOption_runs h env step) fun _ _ _ _ _ => .done ()
    exact whileLoop_runs (holds_runs h env condition) (execAll_runs h env body) hstep _ _
  | .forEach element iterable body _ => by
    refine .bind (iterable.eval_runs h env) fun _ v _ _ hv => ?_
    refine .bind (Evaluator.iterate_runs h hv iterable.span) fun _ iterator _ _ hi => ?_
    exact forLoop_runs (Evaluator.advance_runs h hi iterable.span)
      (fun _ _ hv => .action (acts_bind hv env _)) (execAll_runs h env body) _
  | .breakLoop _ | .continueLoop _ => .pure fun _ _ => trivial
  | .returnValue value _ =>
    .bind (evalOption_runs h env value) fun _ _ _ _ hv => .pure fun _ hst => Value.Known.mono hv hst

theorem execBranch_runs (h : V.Governs ev) (env : Nat) {s : Store} :
    (body : Option (List Stmt)) → V.Runs s (Signal.Known V) (execBranch ev env body)
  | none => .pure fun _ _ => trivial
  | some body => execAll_runs h env body

theorem execAll_runs (h : V.Governs ev) (env : Nat) {s : Store} :
    (body : List Stmt) → V.Runs s (Signal.Known V) (execAll ev env body)
  | [] => .pure fun _ _ => trivial
  | stmt :: rest => by
    refine .bind (stmt.exec_runs h env) fun _ signal _ _ hsignal => ?_
    cases signal with
    | normal => exact execAll_runs h env rest
    | _ => exact .pure fun _ hst => Signal.Known.mono hsignal hst

end

end Syntax

namespace Evaluator

open Syntax

/-! ### Calls -/

theorem bindThis_runs {f : Function} (hf : ∀ v, f.receiver = some v → v.Known V s) (frame : Nat)
    {arguments : List Value} (ha : ∀ v ∈ arguments, v.Known V s) (span : Span) :
    V.Runs s (fun t vs => ∀ v ∈ vs, v.Known V t) (bindThis f frame arguments span) := by
  unfold bindThis
  split
  · next receiver hreceiver =>
    exact .bind (.action (acts_bind (hf _ hreceiver) frame _)) fun _ _ hst _ _ =>
      .pure fun _ htu => Value.Known.all_mono ha (hst.trans htu)
  · exact .raise _ span
  · obtain ⟨hthis, hrest⟩ := List.forall_mem_cons.mp ha
    exact .bind (.action (acts_bind hthis frame _)) fun _ _ hst _ _ =>
      .pure fun _ htu => Value.Known.all_mono hrest (hst.trans htu)
  · exact .pure fun _ hst => Value.Known.all_mono ha hst

theorem acts_bindParameters (frame : Nat) (names : List Ident) {values : List Value}
    (h : ∀ v ∈ values, v.Known V s) : V.Acts s Any (bindParameters frame names values) := by
  induction names generalizing s values with
  | nil => exact .done _
  | cons p ps ih =>
    cases values with
    | nil => exact .done _
    | cons v vs =>
      obtain ⟨hv, hvs⟩ := List.forall_mem_cons.mp h
      exact .bind (acts_bind hv frame p.name) fun _ _ hst _ _ => ih (Value.Known.all_mono hvs hst)

variable {ev : Evaluator} (h : V.Governs ev)

include h

theorem callFunction_runs {f : Function} (hf : ∀ v, f.receiver = some v → v.Known V s)
    {arguments : List Value} (ha : ∀ v ∈ arguments, v.Known V s) (span : Span) :
    V.Runs s (Value.Known V) (ev.callFunction f arguments span) := by
  refine .bind (.action (acts_newFrame _)) fun t frame hst _ _ => ?_
  have hthis := bindThis_runs (fun v hv => (hf v hv).mono hst) frame
    (Value.Known.all_mono ha hst) span
  refine .bind hthis fun _ arguments _ _ harguments => ?_
  split
  · refine .bind (.action (acts_bindParameters frame _ harguments)) fun _ _ _ _ _ => ?_
    refine .bind (execAll_runs h frame f.decl.body) fun _ signal _ _ hsignal => ?_
    cases signal with
    | returned v => exact .value hsignal
    | _ =>
      dsimp only
      rw [h.stray]
      exact .bind (.done ()) fun _ _ _ _ _ => .value trivial
  · exact .raise _ span

/-- A call of a known value keeps to the veil if native functions may be called as it does. -/
theorem dispatch_runsAt {m : Machine} (hm : m.store.Sound V) {callee : Value}
    (hc : callee.Known V m.store) {arguments : List Value}
    (ha : ∀ v ∈ arguments, v.Known V m.store)
    (hp : ∀ f all, nativeCall? callee arguments = some (f, all) →
      f.arity.accepts all.length = true → V.Permits m.store f all) (span : Span) :
    V.RunsAt m (Value.Known V) (ev.dispatch callee arguments span) := by
  have hrefuse {t : Store} : V.Runs t (Value.Known V)
      (do raise (.notCallable ((← store).typeName callee)) span) :=
    .bind .store fun _ _ _ _ _ => .raise _ span
  cases callee with
  | function id =>
    have hfunction : V.Runs m.store (Value.Known V)
        (ev.dispatch (.function id) arguments span) := by
      refine .bind .store fun t u hmt ht hu => ?_
      subst hu
      split
      · next f hf =>
        have hcontents := ht.contents.functions f (Array.mem_of_getElem? hf)
        exact callFunction_runs h hcontents (Value.Known.all_mono ha hmt) span
      · exact .value trivial
    exact hfunction.now hm
  | native f => exact native_runsAt h hm ha (hp f arguments rfl) span
  | bound f receiver =>
    have ha : ∀ v ∈ receiver :: arguments, v.Known V m.store :=
      List.forall_mem_cons.mpr ⟨hc, ha⟩
    exact native_runsAt h hm ha (hp f (receiver :: arguments) rfl) span
  | type id => exact (instantiate_runs h hc ha span).now hm
  | object id =>
    have hname : "__call__" ∉ iteratorFields := by decide
    have hhook : V.Runs m.store (Value.Known V) (ev.dispatch (.object id) arguments span) := by
      refine .bind (callHook_runs h hc ha hname span) fun _ result _ _ hresult => ?_
      cases result with
      | some result => exact .value (hresult result rfl)
      | none => exact hrefuse
    exact hhook.now hm
  | _ => exact hrefuse.now hm

end Evaluator
end Rill
