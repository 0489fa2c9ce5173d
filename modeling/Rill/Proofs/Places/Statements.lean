import Rill.Proofs.Places.Natives
import Rill.Session

/-! Expressions and statements run the same without their places. -/
namespace Rill

open Text (Span)
open Eval

namespace Syntax

theorem alike_readVariable (env : Nat) (name : String) (span span' : Span) :
    RunsAlike (readVariable env name span) (readVariable env name span') := by
  apply RunsAlike.store
  intro s t hst
  rw [hst.read?]
  split
  · exact .pure _
  · exact .raise _ span span'

theorem alike_writeVariable (settings : Settings) (env : Nat) (name : String) (v : Value) :
    RunsAlike (writeVariable settings env name v) (writeVariable settings env name v) := by
  apply RunsAlike.store
  intro s t hst
  rw [hst.isNamespace]
  split
  · exact .action (Store.alike_bind env name v)
  split
  · exact .action (Store.alike_bind globals name v)
  · apply RunsAlike.bind (.action (Store.alike_assign env name v))
    intro found
    cases found with
    | true => exact .pure ()
    | false => exact .action (Store.alike_bind env name v)

theorem alike_atom (env : Nat) (span span' : Span) (a : Atom) :
    RunsAlike (a.eval env span) (a.eval env span') := by
  cases a with
  | var name => exact alike_readVariable env name span span'
  | _ => exact .pure _

theorem alike_close (decl : FunctionDecl) (env : Nat) :
    Store.ActsAlike (decl.close env) (decl.bare.close env) := by
  apply Store.ActsAlike.bind (Store.alike_capture env)
  intro closure
  apply Store.alike_newFunction
  -- One function has places and the other has none; both have the same bare form.
  unfold Function.bare
  rw [FunctionDecl.bare_bare]

theorem alike_declare (settings : Settings) (decl : FunctionDecl) (env : Nat) :
    RunsAlike (decl.declare settings env) (decl.bare.declare settings env) := by
  have hname : decl.bare.name.name = decl.name.name := by
    cases decl
    rfl
  unfold FunctionDecl.declare
  rw [hname]
  apply RunsAlike.store
  intro s t hst
  rw [hst.isNamespace]
  apply RunsAlike.bind (.action (Store.alike_bind _ _ _))
  intro _
  apply RunsAlike.bind (.action (alike_close decl env))
  intro function
  exact .action (Store.alike_bind _ _ _)

theorem alike_methodOf (v : Value) : Store.ActsAlike (methodOf v) (methodOf v) := by
  cases v with
  | function id =>
    apply Store.ActsAlike.get
    intro s t hst
    have hfound := hst.functions id
    generalize s.functions[id]? = found at hfound
    generalize t.functions[id]? = found' at hfound
    cases hfound with
    | none => exact .pure _
    | some hbare =>
      apply Store.alike_newFunction
      exact congrArg (fun f : Function => { f with isMethod := true }) hbare
  | _ => exact .pure _

theorem alike_harvestClass (env body : Nat) (name : String) (superclass : Nat) :
    Store.ActsAlike (harvestClass env body name superclass)
      (harvestClass env body name superclass) := by
  apply Store.ActsAlike.get
  intro s t hst
  rw [hst.bindings]
  apply Store.ActsAlike.bind
  · apply Store.ActsAlike.mapM
    intro entry
    apply Store.ActsAlike.bind (alike_methodOf _)
    intro v
    exact .pure _
  intro attributes
  apply Store.ActsAlike.bind (Store.alike_newClass _)
  intro type
  exact Store.alike_bind env name type

theorem alike_harvestModule (env body : Nat) (name : String) :
    Store.ActsAlike (harvestModule env body name) (harvestModule env body name) := by
  apply Store.ActsAlike.get
  intro s t hst
  rw [hst.bindings]
  apply Store.ActsAlike.bind (Store.alike_newModule _)
  intro module
  exact Store.alike_bind env name module

theorem alike_superclassOf (v : Value) (span span' : Span) :
    RunsAlike (superclassOf v span) (superclassOf v span') := by
  unfold superclassOf
  split
  · exact .pure _
  · exact .raiseOf (fun _ _ hst => by rw [hst.typeName]) span span'

theorem alike_whileLoop {test test' : Eval Bool} {body body' : Eval Signal} {step step' : Eval Unit}
    (htest : RunsAlike test test') (hbody : RunsAlike body body') (hstep : RunsAlike step step')
    (fuel : Nat) (check : Bool) :
    RunsAlike (whileLoop test body step fuel check) (whileLoop test' body' step' fuel check) := by
  induction fuel generalizing check with
  | zero => exact .outOfFuel
  | succ fuel ih =>
    have hfirst : RunsAlike (if check then test else pure true)
        (if check then test' else pure true) := by
      cases check with
      | true => exact htest
      | false => exact .pure true
    apply RunsAlike.bind hfirst
    intro more
    cases more with
    | false => exact .pure _
    | true =>
      apply RunsAlike.bind hbody
      intro signal
      cases signal with
      | breakLoop | returned v => exact .pure _
      | normal | continueLoop =>
        apply RunsAlike.bind hstep
        intro _
        exact ih true

theorem alike_forLoop {next next' : Eval (Option Value)} {bind : Value → Eval Unit}
    {body body' : Eval Signal} (hnext : RunsAlike next next')
    (hbind : ∀ v, RunsAlike (bind v) (bind v)) (hbody : RunsAlike body body') (fuel : Nat) :
    RunsAlike (forLoop next bind body fuel) (forLoop next' bind body' fuel) := by
  induction fuel with
  | zero => exact .outOfFuel
  | succ fuel ih =>
    apply RunsAlike.bind hnext
    intro v
    cases v with
    | none => exact .pure _
    | some v =>
      apply RunsAlike.bind (hbind v)
      intro _
      apply RunsAlike.bind hbody
      intro signal
      cases signal with
      | breakLoop | returned v => exact .pure _
      | normal | continueLoop => exact ih

variable {ev : Evaluator} (h : ev.Blind)

include h

/-- Included files are the same on both sides, with the same places. -/
theorem alike_includeFile (env : Nat) (path : String) (span span' : Span) :
    RunsAlike (includeFile ev env path span) (includeFile ev env path span') := by
  apply RunsAlike.get
  intro m n hmn
  rw [hmn.includes]
  split
  · exact .raise _ span span'
  · split
    · exact .raise _ span span'
    · apply RunsAlike.bind (.inInclude path (h.block _ env))
      intro signal
      exact h.stray signal

theorem alike_createInstance (type : Value) (arguments : List Value) (span span' : Span) :
    RunsAlike (createInstance ev type arguments span) (createInstance ev type arguments span') := by
  unfold createInstance
  split
  · exact Evaluator.alike_instantiate h _ arguments span span'
  · exact .invalidOf (fun _ _ hst => by rw [hst.typeName]) span span'

theorem alike_combine (op : AssignOp) {old old' v v' : Eval Value} (hold : RunsAlike old old')
    (hv : RunsAlike v v') (span span' : Span) :
    RunsAlike (combine ev op old v span) (combine ev op old' v' span') := by
  cases op with
  | plain => exact hv
  | inPlace op =>
    apply RunsAlike.bind hold
    intro current
    apply RunsAlike.bind hv
    intro v
    exact Evaluator.alike_binary h op current v span span'

omit h

mutual

theorem Expr.alike_eval (h : ev.Blind) (env : Nat) :
    (e : Expr) → RunsAlike (e.eval ev env) (e.bare.eval ev env)
  | .atom a span => alike_atom env span _ a
  | .group inner _ => Expr.alike_eval h env inner
  | .sequence parts _ => alike_evalLast h env .null parts
  | .unary op operand span => by
    apply RunsAlike.bind (Expr.alike_eval h env operand)
    intro v
    exact Evaluator.alike_unary h op v span _
  | .binary op lhs rhs span => by
    apply RunsAlike.bind (Expr.alike_eval h env lhs)
    intro l
    apply RunsAlike.bind (Expr.alike_eval h env rhs)
    intro r
    exact Evaluator.alike_binary h op l r span _
  | .logic op lhs rhs span => by
    apply RunsAlike.bind (Expr.alike_eval h env lhs)
    intro l
    apply RunsAlike.bind (Evaluator.alike_truthy h l span _)
    intro truth
    split
    · exact .pure l
    · exact Expr.alike_eval h env rhs
  | .assign op target value span =>
    Target.alike_assign h env op (Expr.alike_eval h env value) span _ target
  | .call callee arguments span => by
    apply RunsAlike.bind (Expr.alike_eval h env callee)
    intro f
    apply RunsAlike.bind (alike_evalAll h env arguments)
    intro values
    exact h.call f values span _
  | .create type arguments span => by
    apply RunsAlike.bind (Expr.alike_eval h env type)
    intro type
    apply RunsAlike.bind (alike_evalAll h env arguments)
    intro values
    exact alike_createInstance h type values span _
  | .subscript object index span => by
    apply RunsAlike.bind (Expr.alike_eval h env object)
    intro o
    apply RunsAlike.bind (Expr.alike_eval h env index)
    intro i
    exact Evaluator.alike_getItem h o i span _
  | .attr object name span => by
    apply RunsAlike.bind (Expr.alike_eval h env object)
    intro o
    apply RunsAlike.bind (h.watch o name.name false)
    intro _
    exact Evaluator.alike_getAttribute o name.name span _
  | .function decl => .action (alike_close decl env)
  | .list elements _ => by
    apply RunsAlike.bind (alike_evalAll h env elements)
    intro values
    exact .action (Store.alike_newList _)
  | .dict entries span => by
    apply RunsAlike.bind (alike_evalEntries h env span _ Table.empty entries)
    intro table
    exact .action (Store.alike_newDict table)

theorem Target.alike_assign (h : ev.Blind) (env : Nat) (op : AssignOp) {v v' : Eval Value}
    (hv : RunsAlike v v') (span span' : Span) :
    (t : Target) → RunsAlike (t.assign ev env op v span) (t.bare.assign ev env op v' span')
  | .var name => by
    apply RunsAlike.bind (alike_combine h op (alike_readVariable env name.name _ _) hv span span')
    intro v
    apply RunsAlike.bind (alike_writeVariable ev.settings env name.name v)
    intro _
    exact .pure v
  | .attr object name _ => by
    apply RunsAlike.bind (Expr.alike_eval h env object)
    intro o
    apply RunsAlike.bind (h.watch o name.name true)
    intro _
    have hold := Evaluator.alike_getAttribute o name.name span span'
    apply RunsAlike.bind (alike_combine h op hold hv span span')
    intro v
    apply RunsAlike.bind (Evaluator.alike_setAttribute o name.name v span span')
    intro _
    exact .pure v
  | .subscript object index _ => by
    apply RunsAlike.bind (Expr.alike_eval h env object)
    intro o
    apply RunsAlike.bind (Expr.alike_eval h env index)
    intro i
    have hold := Evaluator.alike_getItem h o i span span'
    apply RunsAlike.bind (alike_combine h op hold hv span span')
    intro v
    apply RunsAlike.bind (Evaluator.alike_setItem h o i v span span')
    intro _
    exact .pure v

theorem alike_evalAll (h : ev.Blind) (env : Nat) :
    (es : List Expr) → RunsAlike (evalAll ev env es) (evalAll ev env (bareAll es))
  | [] => .pure []
  | e :: es => by
    apply RunsAlike.bind (Expr.alike_eval h env e)
    intro v
    apply RunsAlike.bind (alike_evalAll h env es)
    intro vs
    exact .pure _

theorem alike_evalLast (h : ev.Blind) (env : Nat) (last : Value) :
    (es : List Expr) → RunsAlike (evalLast ev env last es) (evalLast ev env last (bareAll es))
  | [] => .pure last
  | e :: es => by
    apply RunsAlike.bind (Expr.alike_eval h env e)
    intro v
    exact alike_evalLast h env v es

theorem alike_evalEntries (h : ev.Blind) (env : Nat) (span span' : Span)
    (table : Table Key Value) : (es : List (Expr × Expr)) →
      RunsAlike (evalEntries ev env span table es) (evalEntries ev env span' table (bareEntries es))
  | [] => .pure table
  | (key, value) :: es => by
    apply RunsAlike.bind (Expr.alike_eval h env key)
    intro k
    apply RunsAlike.bind (Expr.alike_eval h env value)
    intro v
    apply RunsAlike.bind (.attempt (Store.alike_key k) span span')
    intro k
    exact alike_evalEntries h env span span' (table.put k v) es

end

include h

theorem alike_evalOption (env : Nat) (e : Option Expr) :
    RunsAlike (evalOption ev env e) (evalOption ev env (bareOption e)) := by
  cases e with
  | none => exact .pure _
  | some e => exact Expr.alike_eval h env e

theorem alike_holds (env : Nat) (e : Option Expr) :
    RunsAlike (holds ev env e) (holds ev env (bareOption e)) := by
  cases e with
  | none => exact .pure true
  | some e =>
    apply RunsAlike.bind (Expr.alike_eval h env e)
    intro v
    exact Evaluator.alike_truthy h v _ _

theorem alike_evalSuperclass (env : Nat) (e : Option Expr) :
    RunsAlike (evalSuperclass ev env e) (evalSuperclass ev env (bareOption e)) := by
  cases e with
  | none => exact .pure _
  | some e =>
    apply RunsAlike.bind (Expr.alike_eval h env e)
    intro v
    exact alike_superclassOf v _ _

omit h

mutual

theorem Stmt.alike_exec (h : ev.Blind) (env : Nat) :
    (s : Stmt) → RunsAlike (s.exec ev env) (s.bare.exec ev env)
  | .functionDecl decl => by
    apply RunsAlike.bind (alike_declare ev.settings decl env)
    intro _
    exact .pure _
  | .moduleDecl name body _ => by
    apply RunsAlike.bind (.action (Store.alike_newFrame _))
    intro inner
    apply RunsAlike.bind (alike_execAll h inner body)
    intro signal
    apply RunsAlike.bind (h.stray signal)
    intro _
    apply RunsAlike.bind (.action (alike_harvestModule env inner name.name))
    intro _
    exact .pure _
  | .classDecl name superclass body _ => by
    apply RunsAlike.bind (alike_evalSuperclass h env superclass)
    intro parent
    apply RunsAlike.bind (.action (Store.alike_newFrame _))
    intro inner
    apply RunsAlike.bind (alike_execAll h inner body)
    intro signal
    apply RunsAlike.bind (h.stray signal)
    intro _
    apply RunsAlike.bind (.action (alike_harvestClass env inner name.name parent))
    intro _
    exact .pure _
  | .block body _ => alike_execAll h env body
  | .includeFile path span => by
    apply RunsAlike.bind (alike_includeFile h env path span _)
    intro _
    exact .pure _
  | .expr value => by
    apply RunsAlike.bind (Expr.alike_eval h env value)
    intro _
    exact .pure _
  | .ifElse condition success failure _ => by
    apply RunsAlike.bind (alike_holds h env (some condition))
    intro truth
    cases truth with
    | true => exact alike_execAll h env success
    | false => exact alike_execBranch h env failure
  | .loop condition body step testAfter _ => by
    have hstep : RunsAlike (do let _ ← evalOption ev env step)
        (do let _ ← evalOption ev env (bareOption step)) := by
      apply RunsAlike.bind (alike_evalOption h env step)
      intro _
      exact .pure ()
    exact alike_whileLoop (alike_holds h env condition) (alike_execAll h env body) hstep ev.fuel _
  | .forEach element iterable body _ => by
    apply RunsAlike.bind (Expr.alike_eval h env iterable)
    intro v
    apply RunsAlike.bind (Evaluator.alike_callMethod h v _ [] _ _)
    intro iterator
    have hbind (v : Value) := RunsAlike.action (Store.alike_bind env element.name v)
    exact alike_forLoop (Evaluator.alike_advance h iterator _ _) hbind (alike_execAll h env body) _
  | .breakLoop _ => .pure _
  | .continueLoop _ => .pure _
  | .returnValue value _ => by
    apply RunsAlike.bind (alike_evalOption h env value)
    intro v
    exact .pure _

theorem alike_execBranch (h : ev.Blind) (env : Nat) : (body : Option (List Stmt)) →
    RunsAlike (execBranch ev env body) (execBranch ev env (bareBranch body))
  | none => .pure _
  | some body => alike_execAll h env body

theorem alike_execAll (h : ev.Blind) (env : Nat) : (body : List Stmt) →
    RunsAlike (execAll ev env body) (execAll ev env (bareBody body))
  | [] => .pure _
  | s :: ss => by
    apply RunsAlike.bind (Stmt.alike_exec h env s)
    intro signal
    cases signal with
    | normal => exact alike_execAll h env ss
    | _ => exact .pure _

end

end Syntax

namespace Function

theorem arity_bare (f : Function) : f.bare.arity = f.arity := by
  obtain ⟨⟨name, parameters, body, span⟩, closure, receiver, isMethod⟩ := f
  exact List.length_map _

theorem parameters_bare (f : Function) :
    f.bare.decl.parameters = f.decl.parameters.map Syntax.Ident.bare := by
  obtain ⟨⟨name, parameters, body, span⟩, closure, receiver, isMethod⟩ := f
  rfl

theorem body_bare (f : Function) : f.bare.decl.body = Syntax.bareBody f.decl.body := by
  obtain ⟨⟨name, parameters, body, span⟩, closure, receiver, isMethod⟩ := f
  rfl

end Function

namespace Evaluator

open Syntax

theorem alike_bindThis (f : Function) (frame : Nat) (arguments : List Value) (span span' : Span) :
    RunsAlike (bindThis f frame arguments span) (bindThis f.bare frame arguments span') := by
  have hreceiver : f.bare.receiver = f.receiver := rfl
  have hmethod : f.bare.isMethod = f.isMethod := rfl
  unfold bindThis
  rw [hreceiver, hmethod, f.name_bare, f.arity_bare]
  split
  · apply RunsAlike.bind (.action (Store.alike_bind _ _ _))
    intro _
    exact .pure _
  · exact .raise _ span span'
  · apply RunsAlike.bind (.action (Store.alike_bind _ _ _))
    intro _
    exact .pure _
  · exact .pure _

theorem alike_bindParameters (frame : Nat) (names : List Ident) (values : List Value) :
    Store.ActsAlike (bindParameters frame names values)
      (bindParameters frame (names.map Ident.bare) values) := by
  induction names generalizing values with
  | nil => exact .pure ()
  | cons p ps ih =>
    cases values with
    | nil => exact .pure ()
    | cons v vs =>
      apply Store.ActsAlike.bind (Store.alike_bind frame p.name v)
      intro _
      exact ih vs

variable {ev : Evaluator} (h : ev.Blind)

include h

theorem alike_callFunction (f : Function) (arguments : List Value) (span span' : Span) :
    RunsAlike (ev.callFunction f arguments span) (ev.callFunction f.bare arguments span') := by
  unfold callFunction
  rw [f.arity_bare, f.parameters_bare, f.body_bare, f.name_bare]
  apply RunsAlike.bind (.action (Store.alike_newFrame _))
  intro frame
  apply RunsAlike.bind (alike_bindThis f frame arguments span span')
  intro arguments
  split
  · apply RunsAlike.bind (.action (alike_bindParameters frame _ arguments))
    intro _
    apply RunsAlike.bind (alike_execAll h frame f.decl.body)
    intro signal
    cases signal with
    | returned v => exact .pure v
    | normal | breakLoop | continueLoop =>
      apply RunsAlike.bind (h.stray _)
      intro _
      exact .pure _
  · exact .raise _ span span'

/-- Functions that are the same up to places are called alike. -/
theorem alike_callFunction_of_bare {f g : Function} (hfg : f.bare = g.bare)
    (arguments : List Value) (span span' : Span) :
    RunsAlike (ev.callFunction f arguments span) (ev.callFunction g arguments span') := by
  have hf := alike_callFunction h f arguments span span'
  have hg := alike_callFunction h g arguments span' span'
  rw [hfg] at hf
  exact hf.trans hg.symm

theorem alike_dispatch (callee : Value) (arguments : List Value) (span span' : Span) :
    RunsAlike (ev.dispatch callee arguments span) (ev.dispatch callee arguments span') := by
  have hrefuse : RunsAlike
      (do raise (.notCallable ((← store).typeName callee)) span : Eval Value)
      (do raise (.notCallable ((← store).typeName callee)) span') :=
    .raiseOf (fun _ _ hst => by rw [hst.typeName]) span span'
  cases callee with
  | function id =>
    apply RunsAlike.store
    intro s t hst
    have hfound := hst.functions id
    generalize s.functions[id]? = found at hfound
    generalize t.functions[id]? = found' at hfound
    cases hfound with
    | none => exact .pure _
    | some hfg => exact alike_callFunction_of_bare h hfg arguments span span'
  | native f => exact alike_native h f none arguments span span'
  | bound f receiver => exact alike_native h f (some receiver) arguments span span'
  | type id => exact alike_instantiate h id arguments span span'
  | object id =>
    apply RunsAlike.bind (alike_callHook h id _ arguments span span')
    intro result
    cases result with
    | some result => exact .pure result
    | none => exact hrefuse
  | _ => exact hrefuse

theorem alike_callValue (callee : Value) (arguments : List Value) (span span' : Span) :
    RunsAlike (ev.callValue callee arguments span) (ev.callValue callee arguments span') := by
  apply RunsAlike.store
  intro s t hst
  have hname : calleeName s callee = calleeName t callee := by
    unfold calleeName
    rw [hst.functionName, hst.className, hst.typeName]
  apply RunsAlike.inCall (congrArg (fun name => CallFrame.mk name default) hname)
  apply RunsAlike.get
  intro m n hmn
  rw [hmn.depth]
  split
  · exact .raise _ span span'
  · exact alike_dispatch h callee arguments span span'

omit h

/-- Programs do not see their places, as far as their host does not. -/
theorem blind_ofFuel {settings : Settings} (hhosts : ∀ f ∈ settings.hosts, f.Blind) (fuel : Nat) :
    (ofFuel settings fuel).Blind := by
  induction fuel with
  | zero =>
    exact ⟨fun _ _ _ _ => .outOfFuel, fun _ _ => .outOfFuel, fun _ => .pure (), fun _ _ _ => .pure (), hhosts⟩
  | succ fuel ih =>
    -- A file has its own places in both runs, so it is compared with itself by way of the bare file.
    have hblock (body : List Stmt) (frame : Nat) :
        RunsAlike (execAll (ofFuel settings fuel) frame body)
          (execAll (ofFuel settings fuel) frame body) :=
      (alike_execAll ih frame body).trans (alike_execAll ih frame body).symm
    exact ⟨alike_callValue ih, hblock, fun _ => .pure (), fun _ _ _ => .pure (), hhosts⟩

end Evaluator

/-- A program runs like the same program without places. -/
theorem alike_runStatements {ev : Evaluator} (h : ev.Blind) (last : Value) (ss : List Syntax.Stmt) :
    RunsAlike (runStatements ev last ss) (runStatements ev last (Syntax.bareBody ss)) := by
  induction ss generalizing last with
  | nil => exact .pure last
  | cons s ss ih =>
    cases s with
    | expr e =>
      apply RunsAlike.bind (Syntax.Expr.alike_eval h globals e)
      intro v
      exact ih v
    | _ =>
      apply RunsAlike.bind (Syntax.Stmt.alike_exec h globals _)
      intro signal
      apply RunsAlike.bind (h.stray signal)
      intro _
      exact ih last

end Rill
