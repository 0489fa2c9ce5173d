import Rill.Proofs.Renumbering.Natives
import Rill.Session

/-! Programs do not see that there is a function more. -/
namespace Rill

open Text (Span)
open Eval Renumbering

variable {n k : Nat}

namespace Syntax

theorem renumbers_readVariable (env : Nat) (name : String) (span : Span) :
    Runs n k (readVariable env name span) (readVariable env name span) := by
  refine .store fun s t hst _ => ?_
  rw [hst.read?]
  cases h : s.read? env name with
  | none => exact .raise _ span
  | some v => exact .pure rfl (hst.closed.read? env name v h)

theorem renumbers_writeVariable (settings : Settings) (env : Nat) (name : String) {v : Value}
    (hv : Below k v) :
    Runs n k (writeVariable settings env name v)
      (writeVariable settings env name (renumber n v)) := by
  refine .store fun s t hst hs => ?_
  rw [hst.isNamespace]
  split
  · exact .action (acts_bind env name (hv.mono hs))
  split
  · exact .action (acts_bind globals name (hv.mono hs))
  · refine .andThen (.action (acts_assign env name (hv.mono hs))) fun j found hj => ?_
    cases found with
    | true => exact .pure rfl trivial
    | false => exact .action (acts_bind env name (hv.mono (hs.trans hj)))

theorem renumbers_atom (env : Nat) (span : Span) (a : Atom) :
    Runs n k (a.eval env span) (a.eval env span) := by
  cases a with
  | var name => exact renumbers_readVariable env name span
  | _ => exact .pure rfl trivial

theorem renumbers_close (decl : FunctionDecl) (env : Nat) :
    Acts n k (decl.close env) (decl.close env) := by
  refine .andThen (acts_capture env) fun j closure _ => ?_
  have hfunction : Below j (Function.mk decl closure none false) := nofun
  exact acts_newFunction hfunction

theorem renumbers_declare (settings : Settings) (decl : FunctionDecl) (env : Nat) :
    Runs n k (decl.declare settings env) (decl.declare settings env) := by
  refine .store fun s t hst _ => ?_
  rw [hst.isNamespace]
  have hnull {j : Nat} : Below j Value.null := trivial
  refine .bind (.action (acts_bind _ decl.name.name hnull)) fun _ _ _ _ => ?_
  refine .bind (.action (renumbers_close decl env)) fun _ function _ hfunction => ?_
  exact .action (acts_bind _ decl.name.name hfunction)

theorem renumbers_methodOf {v : Value} (hv : Below k v) :
    Acts n k (methodOf v) (methodOf (renumber n v)) := by
  unfold methodOf
  cases v with
  | function id =>
    refine .get fun s t hst hk => ?_
    rw [hst.functions id]
    cases hf : s.functions[id]? with
    | none => exact .pure rfl (hv.mono hk)
    | some f =>
      have hbelow : Below s.functions.size { f with isMethod := true } :=
        hst.closed.functions f (Array.mem_of_getElem? hf)
      exact acts_newFunction hbelow
  | _ => exact .pure rfl hv

/-- A function of a class becomes a method, and methods stay methods. -/
theorem isMethod_methodOf {s : Store} {v : Value} (hv : Below s.functions.size v) :
    (methodOf v s).2.IsMethod (methodOf v s).1 ∧
      (∀ w, s.IsMethod w → (methodOf v s).2.IsMethod w) ∧
      s.functions.size ≤ (methodOf v s).2.functions.size := by
  cases v with
  | function id =>
    have hlt : id < s.functions.size := hv
    have hrun : methodOf (.function id) s = Store.newFunction
        { s.functions[id] with isMethod := true } s := by
      rw [methodOf, Store.get_bind, Array.getElem?_eq_getElem hlt]
    rw [hrun]
    refine ⟨?_, fun w hw => isMethod_push hw _, ?_⟩
    · rintro _ ⟨⟩
      exact ⟨_, Array.getElem?_push_size, rfl⟩
    · change _ ≤ (s.functions.push _).size
      rw [Array.size_push]
      omega
  | _ => exact ⟨by rintro _ ⟨⟩, fun _ hw => hw, le_rfl⟩

/-- The attributes that a class gets of what its body has bound. -/
def attributesOf (entries : List (String × Value)) : Store.Action (List (String × Value)) :=
  entries.mapM fun (key, v) => do return (key, ← methodOf v)

theorem renumbers_attributesOf {entries : List (String × Value)} (h : Below k entries) :
    Acts n k (attributesOf entries) (attributesOf (renumber n entries)) := by
  refine .mapM fun j e he hj => ?_
  refine .bind (renumbers_methodOf ((h e he).2.mono hj)) fun _ v _ hv => ?_
  exact .pure rfl ⟨trivial, hv⟩

/-- Those that are functions are methods, and methods stay methods. -/
theorem isMethod_attributesOf {s : Store} {entries : List (String × Value)}
    (h : Below s.functions.size entries) :
    (∀ e ∈ (attributesOf entries s).1, (attributesOf entries s).2.IsMethod e.2) ∧
      ∀ w, s.IsMethod w → (attributesOf entries s).2.IsMethod w := by
  induction entries generalizing s with
  | nil => exact ⟨List.forall_mem_nil _, fun _ hw => hw⟩
  | cons e entries ih =>
    obtain ⟨he, hes⟩ := below_of_cons h
    obtain ⟨hmethod, hkeeps, hsize⟩ := isMethod_methodOf he.2
    obtain ⟨hrest, hkeeps'⟩ := ih (hes.mono hsize)
    unfold attributesOf at hrest hkeeps' ⊢
    rw [List.mapM_cons]
    refine ⟨List.forall_mem_cons.mpr ⟨hkeeps' _ hmethod, hrest⟩, fun w hw => ?_⟩
    exact hkeeps' w (hkeeps w hw)

theorem renumbers_harvestClass (env body : Nat) (name : String) (superclass : Nat) :
    Acts n k (harvestClass env body name superclass)
      (harvestClass env body name superclass) := by
  refine .get fun s t hst _ => ?_
  rw [hst.bindings]
  have hentries : Below s.functions.size (s.bindings body) :=
    fun e he => ⟨trivial, hst.closed.bindings body e he⟩
  intro u u' hu hle
  have hattributes := renumbers_attributesOf (n := n) hentries u u' hu hle
  have hmethods := (isMethod_attributesOf (hentries.mono hle)).1
  generalize hx : attributesOf (s.bindings body) u = x at hattributes hmethods
  have hbelow : Below x.2.functions.size (Class.mk name (.ofList x.1) (some superclass)) :=
    Table.All.ofList fun e he => (hattributes.below e he).2
  have hclass := acted_newClass hattributes.store hbelow (Table.All.ofList hmethods)
  have hlisted : renumber n (Class.mk name (.ofList x.1) (some superclass)) =
      Class.mk name (.ofList (renumber n x.1)) (some superclass) :=
    congrArg (Class.mk name · (some superclass)) (Table.ofList_renumber x.1)
  rw [hlisted] at hclass
  subst hx
  have htype {j i : Nat} : Below j (Value.type i) := trivial
  exact hattributes.bind (hclass.bind (acts_bind env name htype _ _ hclass.store le_rfl))

theorem renumbers_harvestModule (env body : Nat) (name : String) :
    Acts n k (harvestModule env body name) (harvestModule env body name) := by
  refine .get fun s t hst _ => ?_
  have hmodule : Below s.functions.size (Module.mk name (.ofList (s.bindings body))) :=
    Table.All.ofList (hst.closed.bindings body)
  have hnew := acts_newModule (n := n) hmodule
  have hlisted : renumber n (Module.mk name (.ofList (s.bindings body))) =
      Module.mk name (.ofList (t.bindings body)) := by
    rw [hst.bindings]
    exact congrArg (Module.mk name) (Table.ofList_renumber _)
  rw [hlisted] at hnew
  exact .bind hnew fun _ _ _ hv => acts_bind env name hv

theorem renumbers_superclassOf (v : Value) (span : Span) :
    Runs n k (superclassOf v span) (superclassOf (renumber n v) span) := by
  have hrefuse (v : Value) : Runs (α := Nat) n k
      (do raise (.invalidSuperclass ((← store).typeName v)) span)
      (do raise (.invalidSuperclass ((← store).typeName (renumber n v))) span) :=
    .raiseOf (fun s t hst => by rw [hst.typeName]) span
  unfold superclassOf
  cases v with
  | type id => exact .pure rfl trivial
  | _ => exact hrefuse _

theorem renumbers_whileLoop {test test' : Eval Bool} {body body' : Eval Signal}
    {step step' : Eval Unit} (htest : ∀ j, Runs n j test test')
    (hbody : ∀ j, Runs n j body body') (hstep : ∀ j, Runs n j step step') (fuel : Nat)
    (check : Bool) :
    Runs n k (whileLoop test body step fuel check) (whileLoop test' body' step' fuel check) := by
  induction fuel generalizing k check with
  | zero => exact .outOfFuel
  | succ fuel ih =>
    have hfirst : Runs n k (if check then test else pure true)
        (if check then test' else pure true) := by
      cases check with
      | true => exact htest k
      | false => exact .pure rfl trivial
    refine .andThen hfirst fun j more _ => ?_
    cases more with
    | false => exact .pure rfl nofun
    | true =>
      refine .bind (hbody j) fun i signal _ hsignal => ?_
      cases signal with
      | breakLoop => exact .pure rfl nofun
      | returned v => exact .pure rfl hsignal
      | normal | continueLoop => exact .bind (hstep i) fun _ _ _ _ => ih true

theorem renumbers_forLoop {next next' : Eval (Option Value)} {bind : Value → Eval Unit}
    {body body' : Eval Signal} (hnext : ∀ j, k ≤ j → Runs n j next next')
    (hbind : ∀ j v, Below j v → Runs n j (bind v) (bind (renumber n v)))
    (hbody : ∀ j, Runs n j body body') (fuel : Nat) :
    Runs n k (forLoop next bind body fuel) (forLoop next' bind body' fuel) := by
  induction fuel generalizing k with
  | zero => exact .outOfFuel
  | succ fuel ih =>
    refine .bind (hnext k le_rfl) fun j v hj hv => ?_
    cases v with
    | none => exact .pure rfl nofun
    | some v =>
      refine .bind (hbind j v (hv v rfl)) fun i _ hi _ => ?_
      refine .bind (hbody i) fun l signal hl hsignal => ?_
      cases signal with
      | breakLoop => exact .pure rfl nofun
      | returned v => exact .pure rfl hsignal
      | normal | continueLoop =>
        exact ih fun m hm => hnext m (hj.trans (hi.trans (hl.trans hm)))

variable {ev : Evaluator} (h : ev.Oblivious)

include h

theorem renumbers_includeFile (env : Nat) (path : String) (span : Span) :
    Runs n k (includeFile ev env path span) (includeFile ev env path span) := by
  refine .get fun m m' hm _ => ?_
  rw [hm.includes]
  split
  · exact .raise _ span
  split
  · exact .raise _ span
  · exact .bind (.inInclude path (h.block _ env)) fun _ signal _ _ => h.stray signal

theorem renumbers_createInstance (type : Value) {arguments : List Value} (ha : Below k arguments)
    (span : Span) :
    Runs n k (createInstance ev type arguments span)
      (createInstance ev (renumber n type) (renumber n arguments) span) := by
  have hrefuse (other : Value) : Runs (α := Value) n k
      (do invalid ("`new` expects a class but got " ++ (← store).typeName other ++ ".") span)
      (do
        invalid ("`new` expects a class but got " ++ (← store).typeName (renumber n other) ++ ".")
          span) :=
    .invalidOf (fun s t hst => by rw [hst.typeName]) span
  unfold createInstance
  cases type with
  | type id => exact Evaluator.renumbers_instantiate h id ha span
  | _ => exact hrefuse _

theorem renumbers_combine (op : AssignOp) {old old' v v' : Eval Value} (hold : Runs n k old old')
    (hv : ∀ j, Runs n j v v') (span : Span) :
    Runs n k (combine ev op old v span) (combine ev op old' v' span) := by
  cases op with
  | plain => exact hv k
  | inPlace op =>
    refine .bind hold fun j current _ hcurrent => .bind (hv j) fun i v hi hv => ?_
    exact Evaluator.renumbers_binary h op (hcurrent.mono hi) hv span

omit h

mutual

theorem Expr.renumbers_eval (h : ev.Oblivious) (env : Nat) (k : Nat) :
    (e : Expr) → Runs n k (e.eval ev env) (e.eval ev env)
  | .atom a span => renumbers_atom env span a
  | .group inner _ => Expr.renumbers_eval h env k inner
  | .sequence parts _ => by
    have hnull : Below k Value.null := trivial
    exact renumbers_evalLast h env k hnull parts
  | .unary op operand span =>
    .bind (Expr.renumbers_eval h env k operand) fun _ v _ _ =>
      Evaluator.renumbers_unary h op v span
  | .binary op lhs rhs span => by
    refine .bind (Expr.renumbers_eval h env k lhs) fun j l _ hl => ?_
    refine .bind (Expr.renumbers_eval h env j rhs) fun i r hi hr => ?_
    exact Evaluator.renumbers_binary h op (hl.mono hi) hr span
  | .logic op lhs rhs span => by
    refine .bind (Expr.renumbers_eval h env k lhs) fun j l _ hl => ?_
    refine .andThen (Evaluator.renumbers_truthy h l span) fun i truth hi => ?_
    split
    · exact .pure rfl (hl.mono hi)
    · exact Expr.renumbers_eval h env i rhs
  | .assign op target value span =>
    Target.renumbers_assign h env k op (fun j => Expr.renumbers_eval h env j value) span target
  | .call callee arguments span => by
    refine .bind (Expr.renumbers_eval h env k callee) fun j f _ hf => ?_
    refine .bind (renumbers_evalAll h env j arguments) fun i values hi hvalues => ?_
    exact h.call span (hf.mono hi) hvalues
  | .create type arguments span => by
    refine .bind (Expr.renumbers_eval h env k type) fun j type _ _ => ?_
    refine .bind (renumbers_evalAll h env j arguments) fun i values _ hvalues => ?_
    exact renumbers_createInstance h type hvalues span
  | .subscript object index span => by
    refine .bind (Expr.renumbers_eval h env k object) fun j o _ _ => ?_
    refine .bind (Expr.renumbers_eval h env j index) fun i index _ hindex => ?_
    exact Evaluator.renumbers_getItem h o hindex span
  | .attr object name span => by
    refine .bind (Expr.renumbers_eval h env k object) fun j o _ ho => ?_
    refine .bind (h.watch o name.name false) fun i _ hi _ => ?_
    exact Evaluator.renumbers_getAttribute (ho.mono hi) name.name span
  | .function decl => .action (renumbers_close decl env)
  | .list elements _ => by
    refine .bind (renumbers_evalAll h env k elements) fun j values _ hvalues => ?_
    rw [renumber_toArray]
    exact .action (acts_newList (below_toArray hvalues))
  | .dict entries span => by
    have htable := renumbers_evalEntries h env k span .empty entries
    rw [Table.empty_renumber] at htable
    exact .bind htable fun _ _ _ htable => .action (acts_newDict htable)

theorem Target.renumbers_assign (h : ev.Oblivious) (env : Nat) (k : Nat) (op : AssignOp)
    {v v' : Eval Value} (hv : ∀ j, Runs n j v v') (span : Span) :
    (t : Target) → Runs n k (t.assign ev env op v span) (t.assign ev env op v' span)
  | .var name => by
    have hold := renumbers_readVariable (n := n) (k := k) env name.name name.span
    refine .bind (renumbers_combine h op hold hv span) fun j v _ hv => ?_
    refine .bind (renumbers_writeVariable ev.settings env name.name hv) fun i _ hi _ => ?_
    exact .pure rfl (hv.mono hi)
  | .attr object name _ => by
    refine .bind (Expr.renumbers_eval h env k object) fun j o _ ho => ?_
    refine .bind (h.watch o name.name true) fun i _ hi _ => ?_
    have hold := Evaluator.renumbers_getAttribute (n := n) (ho.mono hi) name.name span
    refine .bind (renumbers_combine h op hold hv span) fun l v _ hv => ?_
    refine .bind (Evaluator.renumbers_setAttribute o name.name hv span) fun m _ hm _ => ?_
    exact .pure rfl (hv.mono hm)
  | .subscript object index _ => by
    refine .bind (Expr.renumbers_eval h env k object) fun j o _ _ => ?_
    refine .bind (Expr.renumbers_eval h env j index) fun i index _ hindex => ?_
    have hold := Evaluator.renumbers_getItem (n := n) h o hindex span
    refine .bind (renumbers_combine h op hold hv span) fun l v hl hv => ?_
    refine .bind (Evaluator.renumbers_setItem h o (hindex.mono hl) hv span) fun m _ hm _ => ?_
    exact .pure rfl (hv.mono hm)

theorem renumbers_evalAll (h : ev.Oblivious) (env : Nat) (k : Nat) :
    (es : List Expr) → Runs n k (evalAll ev env es) (evalAll ev env es)
  | [] => .pure rfl below_nil
  | e :: es => by
    refine .bind (Expr.renumbers_eval h env k e) fun j v _ hv => ?_
    refine .bind (renumbers_evalAll h env j es) fun i vs hi hvs => ?_
    exact .pure rfl (below_cons (hv.mono hi) hvs)

theorem renumbers_evalLast (h : ev.Oblivious) (env : Nat) (k : Nat) {last : Value}
    (hl : Below k last) :
    (es : List Expr) → Runs n k (evalLast ev env last es) (evalLast ev env (renumber n last) es)
  | [] => .pure rfl hl
  | e :: es =>
    .bind (Expr.renumbers_eval h env k e) fun j _ _ hv => renumbers_evalLast h env j hv es

theorem renumbers_evalEntries (h : ev.Oblivious) (env : Nat) (k : Nat) (span : Span)
    {table : Table Key Value} (ht : Below k table) : (es : List (Expr × Expr)) →
      Runs n k (evalEntries ev env span table es) (evalEntries ev env span (renumber n table) es)
  | [] => .pure rfl ht
  | (key, value) :: es => by
    refine .bind (Expr.renumbers_eval h env k key) fun j key hj _ => ?_
    refine .bind (Expr.renumbers_eval h env j value) fun i v hi hv => ?_
    refine .andThen (.attempt (Store.tries_key key) span) fun l key hl => ?_
    rw [← Table.put_renumber]
    have hkl := hj.trans (hi.trans hl)
    exact renumbers_evalEntries h env l span (Table.All.put (ht.mono hkl) (hv.mono hl)) es

end

include h

theorem renumbers_evalOption (env : Nat) (e : Option Expr) :
    Runs n k (evalOption ev env e) (evalOption ev env e) := by
  cases e with
  | none => exact .pure rfl trivial
  | some e => exact Expr.renumbers_eval h env k e

theorem renumbers_holds (env : Nat) (e : Option Expr) :
    Runs n k (holds ev env e) (holds ev env e) := by
  cases e with
  | none => exact .pure rfl trivial
  | some e =>
    exact .bind (Expr.renumbers_eval h env k e) fun _ v _ _ => Evaluator.renumbers_truthy h v _

theorem renumbers_evalSuperclass (env : Nat) (e : Option Expr) :
    Runs n k (evalSuperclass ev env e) (evalSuperclass ev env e) := by
  cases e with
  | none => exact .pure rfl trivial
  | some e =>
    exact .bind (Expr.renumbers_eval h env k e) fun _ v _ _ => renumbers_superclassOf v _

omit h

mutual

theorem Stmt.renumbers_exec (h : ev.Oblivious) (env : Nat) (k : Nat) :
    (s : Stmt) → Runs n k (s.exec ev env) (s.exec ev env)
  | .functionDecl decl =>
    .bind (renumbers_declare ev.settings decl env) fun _ _ _ _ => .pure rfl nofun
  | .moduleDecl name body _ => by
    refine .andThen (.action (acts_newFrame _)) fun j inner _ => ?_
    refine .bind (renumbers_execAll h inner j body) fun _ signal _ _ => ?_
    refine .bind (h.stray signal) fun _ _ _ _ => ?_
    refine .bind (.action (renumbers_harvestModule env inner name.name)) fun _ _ _ _ => ?_
    exact .pure rfl nofun
  | .classDecl name superclass body _ => by
    refine .andThen (renumbers_evalSuperclass h env superclass) fun i parent _ => ?_
    refine .andThen (.action (acts_newFrame _)) fun j inner _ => ?_
    refine .bind (renumbers_execAll h inner j body) fun _ signal _ _ => ?_
    refine .bind (h.stray signal) fun _ _ _ _ => ?_
    refine .bind (.action (renumbers_harvestClass env inner name.name parent)) fun _ _ _ _ => ?_
    exact .pure rfl nofun
  | .block body _ => renumbers_execAll h env k body
  | .includeFile path span =>
    .bind (renumbers_includeFile h env path span) fun _ _ _ _ => .pure rfl nofun
  | .expr value => .bind (Expr.renumbers_eval h env k value) fun _ _ _ _ => .pure rfl nofun
  | .ifElse condition success failure _ => by
    refine .andThen (renumbers_holds h env (some condition)) fun j truth _ => ?_
    cases truth with
    | true => exact renumbers_execAll h env j success
    | false => exact renumbers_execBranch h env j failure
  | .loop condition body step testAfter _ => by
    have hstep (j : Nat) : Runs n j (do let _ ← evalOption ev env step)
        (do let _ ← evalOption ev env step) :=
      .bind (renumbers_evalOption h env step) fun _ _ _ _ => .pure rfl trivial
    exact renumbers_whileLoop (fun _ => renumbers_holds h env condition)
      (fun j => renumbers_execAll h env j body) hstep ev.fuel _
  | .forEach element iterable body _ => by
    refine .bind (Expr.renumbers_eval h env k iterable) fun j v _ hv => ?_
    refine .bind (Evaluator.renumbers_iterate h hv _) fun i iterator _ hi => ?_
    refine renumbers_forLoop (fun l hl => ?_) (fun l v hv => ?_)
      (fun l => renumbers_execAll h env l body) ev.fuel
    · exact Evaluator.renumbers_advance h (hi.mono hl) _
    · exact .action (acts_bind env element.name hv)
  | .breakLoop _ => .pure rfl nofun
  | .continueLoop _ => .pure rfl nofun
  | .returnValue value _ => by
    refine .bind (renumbers_evalOption h env value) fun _ v _ hv => .pure rfl ?_
    rintro _ ⟨⟩
    exact hv

theorem renumbers_execBranch (h : ev.Oblivious) (env : Nat) (k : Nat) :
    (body : Option (List Stmt)) → Runs n k (execBranch ev env body) (execBranch ev env body)
  | none => .pure rfl nofun
  | some body => renumbers_execAll h env k body

theorem renumbers_execAll (h : ev.Oblivious) (env : Nat) (k : Nat) :
    (body : List Stmt) → Runs n k (execAll ev env body) (execAll ev env body)
  | [] => .pure rfl nofun
  | s :: ss => by
    refine .bind (Stmt.renumbers_exec h env k s) fun j signal _ hsignal => ?_
    cases signal with
    | normal => exact renumbers_execAll h env j ss
    | _ => exact .pure rfl hsignal

end

end Syntax

namespace Evaluator

open Syntax

theorem renumbers_bindThis {f : Function} (hf : Below k f) (frame : Nat) {arguments : List Value}
    (ha : Below k arguments) (span : Span) :
    Runs n k (bindThis f frame arguments span)
      (bindThis (renumber n f) frame (renumber n arguments) span) := by
  obtain ⟨decl, closure, receiver, isMethod⟩ := f
  unfold bindThis
  cases receiver with
  | some receiver =>
    refine .bind (.action (acts_bind frame "this" (hf receiver rfl))) fun j _ hj _ => ?_
    exact .pure rfl (ha.mono hj)
  | none =>
    cases isMethod with
    | false => exact .pure rfl ha
    | true =>
      cases arguments with
      | nil => exact .raise _ span
      | cons this rest =>
        obtain ⟨hthis, hrest⟩ := below_of_cons ha
        refine .bind (.action (acts_bind frame "this" hthis)) fun j _ hj _ => ?_
        exact .pure rfl (hrest.mono hj)

theorem renumbers_bindParameters (frame : Nat) (names : List Ident) {values : List Value}
    (h : Below k values) :
    Acts n k (bindParameters frame names values)
      (bindParameters frame names (renumber n values)) := by
  induction names generalizing k values with
  | nil => exact .pure rfl trivial
  | cons p ps ih =>
    cases values with
    | nil => exact .pure rfl trivial
    | cons v vs =>
      obtain ⟨hv, hvs⟩ := below_of_cons h
      exact .bind (acts_bind frame p.name hv) fun j _ hj _ => ih (hvs.mono hj)

theorem calleeName_renumber {s t : Store} (hst : s.Renumbered n t) (callee : Value) :
    calleeName t (renumber n callee) = calleeName s callee := by
  unfold calleeName
  cases callee with
  | function id => exact hst.functionName id
  | type id => exact congrFun hst.className id
  | native f | bound f _ => rfl
  | _ => exact hst.typeName _

variable {ev : Evaluator} (h : ev.Oblivious)

include h

theorem renumbers_callFunction {f : Function} (hf : Below k f) {arguments : List Value}
    (ha : Below k arguments) (span : Span) :
    Runs n k (ev.callFunction f arguments span)
      (ev.callFunction (renumber n f) (renumber n arguments) span) := by
  refine .andThen (.action (acts_newFrame _)) fun j frame hj => ?_
  refine .bind (renumbers_bindThis (hf.mono hj) frame (ha.mono hj) span) fun i arguments _ ha => ?_
  have harity : (renumber n f).arity = f.arity := rfl
  rw [renumber_length, harity]
  split
  · refine .bind (.action (renumbers_bindParameters frame _ ha)) fun l _ _ _ => ?_
    refine .bind (renumbers_execAll h frame l f.decl.body) fun _ signal _ hsignal => ?_
    cases signal with
    | returned v => exact .pure rfl (hsignal v rfl)
    | normal | breakLoop | continueLoop =>
      exact .bind (h.stray _) fun _ _ _ _ => .pure rfl trivial
  · exact .raise _ span

theorem renumbers_dispatch {callee : Value} (hc : Below k callee) {arguments : List Value}
    (ha : Below k arguments) (span : Span) :
    Runs n k (ev.dispatch callee arguments span)
      (ev.dispatch (renumber n callee) (renumber n arguments) span) := by
  have hrefuse (k : Nat) (callee : Value) : Runs (α := Value) n k
      (do raise (.notCallable ((← store).typeName callee)) span)
      (do raise (.notCallable ((← store).typeName (renumber n callee))) span) :=
    .raiseOf (fun s t hst => by rw [hst.typeName]) span
  unfold dispatch
  cases callee with
  | function id =>
    refine .store fun s t hst hs => ?_
    rw [hst.functions id]
    cases hf : s.functions[id]? with
    | none => exact .pure rfl trivial
    | some f =>
      have hbelow : Below s.functions.size f :=
        hst.closed.functions f (Array.mem_of_getElem? hf)
      exact renumbers_callFunction h hbelow (ha.mono hs) span
  | native f =>
    have hnone : Below k (none : Option Value) := nofun
    exact renumbers_native h f hnone ha span
  | bound f receiver =>
    have hreceiver : Below k receiver := hc
    exact renumbers_native h f (below_some hreceiver) ha span
  | type id => exact renumbers_instantiate h id ha span
  | object id =>
    refine .bind (renumbers_callHook h id _ ha span) fun j result _ hresult => ?_
    cases result with
    | some result => exact .pure rfl (hresult result rfl)
    | none => exact hrefuse j (.object id)
  | _ => exact hrefuse k _

theorem renumbers_callValue {callee : Value} (hc : Below k callee) {arguments : List Value}
    (ha : Below k arguments) (span : Span) :
    Runs n k (ev.callValue callee arguments span)
      (ev.callValue (renumber n callee) (renumber n arguments) span) := by
  refine .store fun s t hst hs => ?_
  rw [calleeName_renumber hst]
  refine .inCall _ (.get fun m m' hm hle => ?_)
  rw [hm.calls]
  split
  · exact .raise _ span
  · exact renumbers_dispatch h (hc.mono (hs.trans hle)) (ha.mono (hs.trans hle)) span

omit h

/-- Programs do not see that there is a function more, as far as their host does not. -/
theorem oblivious_ofFuel {settings : Settings} (hhosts : ∀ f ∈ settings.hosts, f.Oblivious)
    (hhonest : ∀ f ∈ settings.hosts, f.Honest) (fuel : Nat) :
    (ofFuel settings fuel).Oblivious := by
  induction fuel with
  | zero =>
    exact {
      call := fun _ _ _ => .outOfFuel
      block := fun _ _ => .outOfFuel
      stray := fun _ => .pure rfl trivial
      watch := fun _ _ _ => .pure rfl trivial
      hosts := hhosts
      honest := hhonest }
  | succ fuel ih =>
    exact {
      call := fun span hc ha => renumbers_callValue ih hc ha span
      block := fun body frame => renumbers_execAll ih frame _ body
      stray := fun _ => .pure rfl trivial
      watch := fun _ _ _ => .pure rfl trivial
      hosts := hhosts
      honest := hhonest }

end Evaluator
end Rill
