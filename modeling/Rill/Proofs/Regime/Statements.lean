import Rill.Eval.Call
import Rill.Proofs.Regime.Natives

/-! Statements end only with signals that something around them waits for. -/
namespace Rill

open Text (Span)
open Eval

variable {R : Regime} {homes : Set Nat}

/-- Something around a statement waits for the signal: a loop for a break or for the next round, a
function for a return. -/
def Signal.Fits (c : Syntax.Surroundings) : Signal → Prop
  | .normal => True
  | .breakLoop | .continueLoop => c.loops ≠ 0
  | .returned _ => c.inFunction = true

/-- Outside of all loops and functions nothing waits. -/
theorem Signal.Fits.eq_normal {s : Signal} (h : s.Fits .bare) : s = .normal := by
  cases s with
  | normal => rfl
  | breakLoop | continueLoop => exact absurd rfl h
  | returned v => cases h

namespace Syntax

theorem FunctionDecl.check_body {decl : FunctionDecl} (h : decl.check = .ok ()) :
    checkAll .function decl.body = .ok () := by
  cases decl
  exact h

theorem readVariable_abides (env : Nat) (name : String) (span : Span) :
    R.Abides homes (readVariable env name span) (readVariable env name span) := by
  refine .bind .store fun s _ => ?_
  split
  · exact .done _
  · exact .raise _ span

theorem writeVariable_abides {settings : Settings} {env : Nat}
    (hglobal : settings.globalAssignment = true → globals ∈ homes) (henv : env ∈ homes)
    (name : String) (v : Value) :
    R.Abides homes (writeVariable settings env name v) (writeVariable settings env name v) := by
  refine .bind .store fun s _ => ?_
  split
  · exact .action (Store.keeps_bind henv name v)
  split
  · next hset => exact .action (Store.keeps_bind (hglobal hset) name v)
  refine .bind (.action (Store.keeps_assign env name v)) fun found _ => ?_
  split
  · exact .action (Store.keeps_bind henv name v)
  · exact .done _

theorem Atom.eval_abides (env : Nat) (span : Span) (a : Atom) :
    R.Abides homes (a.eval env span) (a.eval env span) := by
  cases a with
  | var name => exact readVariable_abides env name span
  | _ => exact .done _

theorem FunctionDecl.keeps_close {decl : FunctionDecl} (h : decl.check = .ok ()) (env : Nat) :
    Store.Keeps homes (decl.close env) fun _ => True :=
  .bind (Store.keeps_capture env) fun _ _ => Store.keeps_newFunction h

theorem FunctionDecl.declare_abides {decl : FunctionDecl} (h : decl.check = .ok ())
    {settings : Settings} {env : Nat}
    (hglobal : settings.globalAssignment = true → globals ∈ homes) (henv : env ∈ homes) :
    R.Abides homes (decl.declare settings env) (decl.declare settings env) := by
  refine .bind .store fun s _ => ?_
  have hhome : (if settings.globalAssignment && !s.isNamespace env then globals else env) ∈
      homes := by
    split
    · next hset => exact hglobal (Bool.and_eq_true_iff.mp hset).1
    · exact henv
  exact .bind (.action (Store.keeps_bind hhome _ _)) fun _ _ =>
    .bind (.action (FunctionDecl.keeps_close h env)) fun _ _ =>
      .action (Store.keeps_bind hhome _ _)

theorem keeps_methodOf (v : Value) : Store.Keeps homes (methodOf v) fun _ => True := by
  unfold methodOf
  split
  · refine .bind .get fun s hs => ?_
    split
    · next f hf =>
      have hdecl : f.decl.check = .ok () := hs.function hf
      exact Store.keeps_newFunction hdecl
    · exact .pure trivial
  · exact .pure trivial

theorem keeps_harvestClass {env : Nat} (henv : env ∈ homes) (body : Nat) (name : String)
    (superclass : Nat) :
    Store.Keeps homes (harvestClass env body name superclass) fun _ => True := by
  refine .bind .get fun s _ => .bind (.mapM (fun entry => ?_) _) fun _ _ => ?_
  · exact .bind (keeps_methodOf _) fun _ _ => .pure trivial
  · exact .bind (Store.keeps_newClass _) fun _ _ => Store.keeps_bind henv name _

theorem keeps_harvestModule {env : Nat} (henv : env ∈ homes) (body : Nat) (name : String) :
    Store.Keeps homes (harvestModule env body name) fun _ => True :=
  .bind .get fun _ _ => .bind (Store.keeps_newModule _) fun _ _ => Store.keeps_bind henv name _

theorem superclassOf_abides (v : Value) (span : Span) :
    R.Abides homes (superclassOf v span) (superclassOf v span) := by
  unfold superclassOf
  split
  · exact .done _
  · exact .bind .store fun _ _ => .raise _ span

section

variable {settings : Settings} {path : String}

theorem included_of_error {reason : String} (hs : settings.source path = .error reason) :
    included settings path = .error reason := by
  unfold included
  rw [hs]
  rfl

theorem included_of_ok {text : String} (hs : settings.source path = .ok text) :
    included settings path =
      match parse text with
      | .error e => .error e.fault.message
      | .ok program =>
        match Program.check program with
        | .error e => .error e.fault.message
        | .ok _ => .ok program := by
  unfold included
  rw [hs]
  rfl

/-- Only checked programs are included. -/
theorem check_of_included {program : Program} (h : included settings path = .ok program) :
    checkAll .bare program = .ok () := by
  cases hs : settings.source path with
  | error reason =>
    rw [included_of_error hs] at h
    cases h
  | ok text =>
    rw [included_of_ok hs] at h
    split at h
    · cases h
    · split at h
      · cases h
      · next hc =>
        cases h
        exact hc

end

theorem whileLoop_abides {c : Surroundings} {test test' : Eval Bool} {body body' : Eval Signal}
    {step step' : Eval Unit} (ht : R.Abides homes test test')
    (hb : R.AbidesWith homes (Signal.Fits c.loop) body body') (hs : R.Abides homes step step')
    (fuel : Nat) (check : Bool) :
    R.AbidesWith homes (Signal.Fits c) (whileLoop test body step fuel check)
      (whileLoop test' body' step' fuel check) := by
  induction fuel generalizing check with
  | zero => exact .outOfFuel
  | succ fuel ih =>
    have htest : R.Abides homes (if check then test else pure true)
        (if check then test' else pure true) := by
      cases check with
      | true => exact ht
      | false => exact .done true
    unfold whileLoop
    refine .bind htest fun more _ => ?_
    split
    · refine .bind hb fun signal hfits => ?_
      cases signal with
      | breakLoop => exact .pure trivial
      | returned v => exact .pure hfits
      | normal | continueLoop => exact .bind hs fun _ _ => ih true
    · exact .pure trivial

theorem forLoop_abides {c : Surroundings} {next next' : Eval (Option Value)}
    {bind : Value → Eval Unit} {body body' : Eval Signal} (hn : R.Abides homes next next')
    (hbind : ∀ v, R.Abides homes (bind v) (bind v))
    (hb : R.AbidesWith homes (Signal.Fits c.loop) body body') (fuel : Nat) :
    R.AbidesWith homes (Signal.Fits c) (forLoop next bind body fuel)
      (forLoop next' bind body' fuel) := by
  induction fuel with
  | zero => exact .outOfFuel
  | succ fuel ih =>
    refine .bind hn fun v _ => ?_
    cases v with
    | none => exact .pure trivial
    | some v =>
      refine .bind (hbind v) fun _ _ => .bind hb fun signal hfits => ?_
      cases signal with
      | breakLoop => exact .pure trivial
      | returned v => exact .pure hfits
      | normal | continueLoop => exact ih

/-- A file that can be read is entered, and its signal is passed over. -/
theorem includeFile_of_ok {ev : Evaluator} {path : String} {program : Program}
    (h : included ev.settings path = .ok program) (env : Nat) (span : Span) :
    includeFile ev env path span =
      (do let signal ← entering path span (ev.block program env); ev.stray signal) := by
  unfold includeFile entering
  rw [h, bind_assoc]
  refine bind_congr fun m => ?_
  by_cases hin : m.includes.contains path = true
  · rw [if_pos hin, if_pos hin]
    rfl
  · rw [if_neg hin, if_neg hin]

variable {ev ev' : Evaluator} (h : R.Governs homes ev ev')

include h

/-- Only calls look at their limit. -/
theorem included_eq (path : String) : included ev'.settings path = included ev.settings path := by
  obtain ⟨limit, hsettings⟩ := h.settings
  rw [hsettings]
  rfl

theorem writeVariable_eq : writeVariable ev'.settings = writeVariable ev.settings := by
  obtain ⟨limit, hsettings⟩ := h.settings
  rw [hsettings]
  rfl

theorem FunctionDecl.declare_eq :
    FunctionDecl.declare ev'.settings = FunctionDecl.declare ev.settings := by
  obtain ⟨limit, hsettings⟩ := h.settings
  rw [hsettings]
  rfl

theorem includeFile_abides {env : Nat} (henv : env ∈ homes) (path : String) (span : Span) :
    R.Abides homes (includeFile ev env path span) (includeFile ev' env path span) := by
  cases hp : included ev.settings path with
  | error reason =>
    have hp' : included ev'.settings path = .error reason := (included_eq h path).trans hp
    unfold includeFile
    rw [hp, hp']
    refine .bind .get fun m _ => ?_
    split
    · exact .raise _ span
    · exact .raise _ span
  | ok program =>
    have hp' : included ev'.settings path = .ok program := (included_eq h path).trans hp
    have hblock := h.block subset_rfl program env henv (check_of_included hp)
    rw [includeFile_of_ok hp, includeFile_of_ok hp']
    refine .bind (.entering (h.opens hp) span hblock) ?_
    rintro _ rfl
    rw [h.stray, h.stray']
    exact .done _

theorem createInstance_abides (type : Value) (arguments : List Value) (span : Span) :
    R.Abides homes (createInstance ev type arguments span)
      (createInstance ev' type arguments span) := by
  unfold createInstance
  split
  · exact Evaluator.instantiate_abides h _ arguments span
  · exact .bind .store fun _ _ => .invalid _ span

theorem combine_abides (op : AssignOp) {old old' v v' : Eval Value} (ho : R.Abides homes old old')
    (hv : R.Abides homes v v') (span : Span) :
    R.Abides homes (combine ev op old v span) (combine ev' op old' v' span) := by
  cases op with
  | plain => exact hv
  | inPlace op =>
    exact .bind ho fun current _ => .bind hv fun v _ => Evaluator.binary_abides h op current v span

omit h

mutual

theorem Expr.eval_abides (h : R.Governs homes ev ev') {env : Nat} (henv : env ∈ homes) :
    (e : Expr) → e.check = .ok () → R.Abides homes (e.eval ev env) (e.eval ev' env)
  | .atom a span, _ => Atom.eval_abides env span a
  | .group inner _, hc => Expr.eval_abides h henv inner hc
  | .sequence parts _, hc => evalLast_abides h henv .null parts hc
  | .unary op operand span, hc =>
    .bind (Expr.eval_abides h henv operand hc) fun v _ => Evaluator.unary_abides h op v span
  | .binary op lhs rhs span, hc =>
    have hc := seq_eq_ok.mp hc
    .bind (Expr.eval_abides h henv lhs hc.1) fun l _ =>
      .bind (Expr.eval_abides h henv rhs hc.2) fun r _ => Evaluator.binary_abides h op l r span
  | .logic op lhs rhs span, hc => by
    have hc := seq_eq_ok.mp hc
    refine .bind (Expr.eval_abides h henv lhs hc.1) fun l _ => ?_
    refine .bind (Evaluator.truthy_abides h l span) fun truth _ => ?_
    split
    · exact .done _
    · exact Expr.eval_abides h henv rhs hc.2
  | .assign op target value span, hc =>
    have hc := seq_eq_ok.mp hc
    Target.assign_abides h henv op (Expr.eval_abides h henv value hc.2) span target hc.1
  | .call callee arguments span, hc =>
    have hc := seq_eq_ok.mp hc
    .bind (Expr.eval_abides h henv callee hc.1) fun f _ =>
      .bind (evalAll_abides h henv arguments hc.2) fun values _ => h.call f values span
  | .create type arguments span, hc =>
    have hc := seq_eq_ok.mp hc
    .bind (Expr.eval_abides h henv type hc.1) fun type _ =>
      .bind (evalAll_abides h henv arguments hc.2) fun values _ =>
        createInstance_abides h type values span
  | .subscript object index span, hc =>
    have hc := seq_eq_ok.mp hc
    .bind (Expr.eval_abides h henv object hc.1) fun o _ =>
      .bind (Expr.eval_abides h henv index hc.2) fun i _ => Evaluator.getItem_abides h o i span
  | .attr object name span, hc =>
    .bind (Expr.eval_abides h henv object hc) fun o _ =>
      .bind (h.watch o name.name false) fun _ _ => Evaluator.getAttribute_abides o name.name span
  | .function decl, hc => .action (FunctionDecl.keeps_close hc env)
  | .list elements _, hc =>
    .bind (evalAll_abides h henv elements hc) fun _ _ => .action (Store.keeps_newList _)
  | .dict entries span, hc =>
    .bind (evalEntries_abides h henv span .empty entries hc) fun _ htable =>
      .action (Store.keeps_newDict htable)

theorem Target.assign_abides (h : R.Governs homes ev ev') {env : Nat} (henv : env ∈ homes)
    (op : AssignOp) {v v' : Eval Value} (hv : R.Abides homes v v') (span : Span) :
    (t : Target) → t.check = .ok () →
      R.Abides homes (t.assign ev env op v span) (t.assign ev' env op v' span)
  | .var name, _ => by
    refine .bind (combine_abides h op (readVariable_abides env _ _) hv span) fun v _ => ?_
    rw [writeVariable_eq h]
    exact .bind (writeVariable_abides h.outermost henv _ v) fun _ _ => .done _
  | .attr object name _, hc =>
    .bind (Expr.eval_abides h henv object hc) fun o _ =>
      .bind (h.watch o name.name true) fun _ _ =>
        .bind (combine_abides h op (Evaluator.getAttribute_abides o _ span) hv span) fun v _ =>
          .bind (Evaluator.setAttribute_abides o _ v span) fun _ _ => .done _
  | .subscript object index _, hc =>
    have hc := seq_eq_ok.mp hc
    .bind (Expr.eval_abides h henv object hc.1) fun o _ =>
      .bind (Expr.eval_abides h henv index hc.2) fun i _ =>
        .bind (combine_abides h op (Evaluator.getItem_abides h o i span) hv span) fun v _ =>
          .bind (Evaluator.setItem_abides h o i v span) fun _ _ => .done _

theorem evalAll_abides (h : R.Governs homes ev ev') {env : Nat} (henv : env ∈ homes) :
    (es : List Expr) → checkExprs es = .ok () →
      R.Abides homes (evalAll ev env es) (evalAll ev' env es)
  | [], _ => .done _
  | e :: es, hc =>
    have hc := seq_eq_ok.mp hc
    .bind (Expr.eval_abides h henv e hc.1) fun _ _ =>
      .bind (evalAll_abides h henv es hc.2) fun _ _ => .done _

theorem evalLast_abides (h : R.Governs homes ev ev') {env : Nat} (henv : env ∈ homes)
    (last : Value) : (es : List Expr) → checkExprs es = .ok () →
      R.Abides homes (evalLast ev env last es) (evalLast ev' env last es)
  | [], _ => .done _
  | e :: es, hc =>
    have hc := seq_eq_ok.mp hc
    .bind (Expr.eval_abides h henv e hc.1) fun v _ => evalLast_abides h henv v es hc.2

theorem evalEntries_abides (h : R.Governs homes ev ev') {env : Nat} (henv : env ∈ homes)
    (span : Span) {table : Table Key Value} (htable : table.Proper) : (es : List (Expr × Expr)) →
    checkEntries es = .ok () → R.AbidesWith homes Table.Proper (evalEntries ev env span table es)
      (evalEntries ev' env span table es)
  | [], _ => .pure htable
  | (key, value) :: es, hc =>
    have hkey := seq_eq_ok.mp hc
    have hvalue := seq_eq_ok.mp hkey.2
    .bind (Expr.eval_abides h henv key hkey.1) fun k _ =>
      .bind (Expr.eval_abides h henv value hvalue.1) fun v _ =>
        .bind (.attempt_of (Store.safe_key k) (fun _ _ _ => Store.key_proper) span) fun _ hk =>
          evalEntries_abides h henv span (htable.put hk v) es hvalue.2

end

include h

theorem evalOption_abides {env : Nat} (henv : env ∈ homes) {e : Option Expr}
    (hc : checkOption e = .ok ()) :
    R.Abides homes (evalOption ev env e) (evalOption ev' env e) := by
  cases e with
  | none => exact .done _
  | some e => exact Expr.eval_abides h henv e hc

theorem holds_abides {env : Nat} (henv : env ∈ homes) {e : Option Expr}
    (hc : checkOption e = .ok ()) :
    R.Abides homes (holds ev env e) (holds ev' env e) := by
  cases e with
  | none => exact .done _
  | some e =>
    exact .bind (Expr.eval_abides h henv e hc) fun v _ => Evaluator.truthy_abides h v e.span

theorem evalSuperclass_abides {env : Nat} (henv : env ∈ homes) {e : Option Expr}
    (hc : checkOption e = .ok ()) :
    R.Abides homes (evalSuperclass ev env e) (evalSuperclass ev' env e) := by
  cases e with
  | none => exact .done _
  | some e => exact .bind (Expr.eval_abides h henv e hc) fun v _ => superclassOf_abides v e.span

/-- A body in which nothing waits for a signal leaves none behind. -/
theorem stray_abides {body body' : Eval Signal} {rest : Eval Signal}
    (hb : R.AbidesWith homes (Signal.Fits .bare) body body') {Q : Signal → Prop}
    (hr : R.AbidesWith homes Q rest rest) :
    R.AbidesWith homes Q (do ev.stray (← body); rest) (do ev'.stray (← body'); rest) := by
  refine .bind hb fun signal hfits => ?_
  rw [hfits.eq_normal, h.stray, h.stray']
  exact .bind (.done ()) fun _ _ => hr

omit h

mutual

theorem Stmt.exec_abides {homes : Set Nat} (h : R.Governs homes ev ev') (c : Surroundings)
    {env : Nat} (henv : env ∈ homes) :
    (s : Stmt) → s.check c = .ok () →
      R.AbidesWith homes (Signal.Fits c) (s.exec ev env) (s.exec ev' env)
  | .functionDecl decl, hc => by
    have hdecl := FunctionDecl.declare_abides (R := R) hc h.outermost henv
    unfold Stmt.exec
    rw [FunctionDecl.declare_eq h]
    exact .bind hdecl fun _ _ => .pure trivial
  | .moduleDecl name body _, hc =>
    .newFrame fun inner =>
      have hinner := h.enter inner
      stray_abides hinner (execAll_abides hinner .bare (Set.mem_insert inner homes) body hc)
        (.bind (.action (keeps_harvestModule (Set.mem_insert_of_mem inner henv) inner name.name))
          fun _ _ => .pure trivial)
  | .classDecl name superclass body _, hc =>
    have hc := seq_eq_ok.mp hc
    .bind (evalSuperclass_abides h henv hc.1) fun parent _ =>
      .newFrame fun inner =>
        have hinner := h.enter inner
        stray_abides hinner (execAll_abides hinner .bare (Set.mem_insert inner homes) body hc.2)
          (.bind (.action (keeps_harvestClass (Set.mem_insert_of_mem inner henv) inner name.name
            parent)) fun _ _ => .pure trivial)
  | .block body _, hc => execAll_abides h c henv body hc
  | .includeFile path span, _ =>
    .bind (includeFile_abides h henv path span) fun _ _ => .pure trivial
  | .expr value, hc => .bind (Expr.eval_abides h henv value hc) fun _ _ => .pure trivial
  | .ifElse condition success failure _, hc => by
    have hcondition := seq_eq_ok.mp hc
    have hbranches := seq_eq_ok.mp hcondition.2
    refine .bind (holds_abides h henv (e := some condition) hcondition.1) fun truth _ => ?_
    split
    · exact execAll_abides h c henv success hbranches.1
    · exact execBranch_abides h c henv failure hbranches.2
  | .loop condition body step testAfter _, hc => by
    have hcondition := seq_eq_ok.mp hc
    have hrest := seq_eq_ok.mp hcondition.2
    unfold Stmt.exec
    rw [← h.fuel]
    exact whileLoop_abides (holds_abides h henv hcondition.1)
      (execAll_abides h c.loop henv body hrest.2)
      (.bind (evalOption_abides h henv hrest.1) fun _ _ => .done _) _ _
  | .forEach element iterable body _, hc => by
    have hc := seq_eq_ok.mp hc
    unfold Stmt.exec
    rw [← h.fuel]
    refine .bind (Expr.eval_abides h henv iterable hc.1) fun v _ => ?_
    refine .bind (Evaluator.iterate_abides h v iterable.span) fun iterator _ => ?_
    exact forLoop_abides (Evaluator.advance_abides h iterator iterable.span)
      (fun v => .action (Store.keeps_bind henv _ v)) (execAll_abides h c.loop henv body hc.2) _
  | .breakLoop _, hc => by
    refine .pure fun hnone => ?_
    unfold Stmt.check at hc
    rw [if_pos hnone] at hc
    cases hc
  | .continueLoop _, hc => by
    refine .pure fun hnone => ?_
    unfold Stmt.check at hc
    rw [if_pos hnone] at hc
    cases hc
  | .returnValue value _, hc => by
    unfold Stmt.check at hc
    split at hc
    · next hf => exact .bind (evalOption_abides h henv hc) fun _ _ => .pure hf
    · cases hc

theorem execBranch_abides {homes : Set Nat} (h : R.Governs homes ev ev') (c : Surroundings)
    {env : Nat} (henv : env ∈ homes) :
    (body : Option (List Stmt)) → checkBranch c body = .ok () →
      R.AbidesWith homes (Signal.Fits c) (execBranch ev env body) (execBranch ev' env body)
  | none, _ => .pure trivial
  | some body, hc => execAll_abides h c henv body hc

theorem execAll_abides {homes : Set Nat} (h : R.Governs homes ev ev') (c : Surroundings)
    {env : Nat} (henv : env ∈ homes) :
    (body : List Stmt) → checkAll c body = .ok () →
      R.AbidesWith homes (Signal.Fits c) (execAll ev env body) (execAll ev' env body)
  | [], _ => .pure trivial
  | s :: ss, hc => by
    have hc := seq_eq_ok.mp hc
    refine .bind (Stmt.exec_abides h c henv s hc.1) fun signal hfits => ?_
    cases signal with
    | normal => exact execAll_abides h c henv ss hc.2
    | _ => exact .pure hfits

end

end Syntax

/-- The native function that a value stands for, with or without a receiver. -/
def Value.native? : Value → Option Native
  | .native f | .bound f _ => some f
  | _ => none

namespace Evaluator

open Syntax

theorem bindThis_abides (f : Function) {frame : Nat} (hframe : frame ∈ homes)
    (arguments : List Value) (span : Span) :
    R.Abides homes (bindThis f frame arguments span) (bindThis f frame arguments span) := by
  unfold bindThis
  split
  · exact .bind (.action (Store.keeps_bind hframe _ _)) fun _ _ => .done _
  · exact .raise _ span
  · exact .bind (.action (Store.keeps_bind hframe _ _)) fun _ _ => .done _
  · exact .done _

theorem keeps_bindParameters {frame : Nat} (hframe : frame ∈ homes) (names : List Ident)
    (values : List Value) :
    Store.Keeps homes (bindParameters frame names values) fun _ => True := by
  induction names generalizing values with
  | nil => exact .pure trivial
  | cons p ps ih =>
    cases values with
    | nil => exact .pure trivial
    | cons v vs => exact .bind (Store.keeps_bind hframe p.name v) fun _ _ => ih vs

variable {ev ev' : Evaluator} (h : R.Governs homes ev ev')

include h

/-- The body of a checked function ends normally or returns. Its variables are in a frame of its
own. -/
theorem callFunction_abides {f : Function} (hf : f.decl.check = .ok ()) (arguments : List Value)
    (span : Span) :
    R.Abides homes (ev.callFunction f arguments span) (ev'.callFunction f arguments span) := by
  refine .newFrame fun frame => ?_
  have hinner := h.enter frame
  have hframe : frame ∈ insert frame homes := Set.mem_insert frame homes
  have hbody := execAll_abides hinner .function hframe f.decl.body (FunctionDecl.check_body hf)
  refine .bind (bindThis_abides f hframe arguments span) fun arguments _ => ?_
  split
  · refine .bind (.action (keeps_bindParameters hframe _ arguments)) fun _ _ => ?_
    refine .bind hbody fun signal hfits => ?_
    cases signal with
    | returned v => exact .done _
    | normal =>
      dsimp only
      rw [h.stray, h.stray']
      exact .bind (.done ()) fun _ _ => .done _
    | breakLoop | continueLoop => exact absurd rfl hfits
  · exact .raise _ span

/-- A call of any value goes by the regime. If the value is `exit`, the regime has to let it. -/
theorem dispatch_abides (callee : Value) (arguments : List Value) (span : Span)
    (hexit : callee.native? = some (.builtin (.global .exit)) → R.LetsExit) :
    R.Abides homes (ev.dispatch callee arguments span) (ev'.dispatch callee arguments span) := by
  have hrefuse : R.Abides homes
      (do raise (.notCallable ((← store).typeName callee)) span : Eval Value)
      (do raise (.notCallable ((← store).typeName callee)) span) :=
    .bind .store fun _ _ => .raise _ span
  cases callee with
  | function id =>
    refine .bind .store fun s hs => ?_
    cases hf : s.functions[id]? with
    | none => exact .done _
    | some f => exact callFunction_abides h (hs.function hf) arguments span
  | native f => exact native_abides h f none arguments span fun hf => hexit (congrArg some hf)
  | bound f receiver =>
    exact native_abides h f (some receiver) arguments span fun hf => hexit (congrArg some hf)
  | type id => exact instantiate_abides h id arguments span
  | object id =>
    refine .bind (callHook_abides h id _ arguments span) fun result _ => ?_
    cases result with
    | some result => exact .done _
    | none => exact hrefuse
  | _ => exact hrefuse

end Evaluator
end Rill
