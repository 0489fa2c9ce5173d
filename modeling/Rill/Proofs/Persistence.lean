import Rill.Proofs.Locals

/-! Classes and modules stay as they were made. -/
namespace Rill

open Text (Span)
open Eval

namespace Store

/-- From one store to a later one, classes, modules and functions stay as they are, instances stay
in their classes, and no list is dropped. What may change are the elements of lists, the entries of
dicts, the fields of instances and the variables. -/
structure Persists (s t : Store) : Prop where
  classes : ∀ {id : Nat} {c : Class}, s.classes[id]? = some c → t.classes[id]? = some c
  modules : ∀ {id : Nat} {k : Module}, s.modules[id]? = some k → t.modules[id]? = some k
  functions : ∀ {id : Nat} {f : Function}, s.functions[id]? = some f → t.functions[id]? = some f
  types : ∀ {id : Nat} {o : Instance}, s.instances[id]? = some o →
    ∃ p, t.instances[id]? = some p ∧ p.type = o.type
  lists : s.lists.size ≤ t.lists.size

namespace Persists

variable {s t u : Store}

theorem refl (s : Store) : s.Persists s where
  classes h := h
  modules h := h
  functions h := h
  types h := ⟨_, h, rfl⟩
  lists := le_rfl

theorem trans (hst : s.Persists t) (htu : t.Persists u) : s.Persists u where
  classes h := htu.classes (hst.classes h)
  modules h := htu.modules (hst.modules h)
  functions h := htu.functions (hst.functions h)
  types h := by
    obtain ⟨p, hp, htype⟩ := hst.types h
    obtain ⟨q, hq, htype'⟩ := htu.types hp
    exact ⟨q, hq, htype'.trans htype⟩
  lists := hst.lists.trans htu.lists

theorem classes_size (h : s.Persists t) : s.classes.size ≤ t.classes.size := by
  by_contra hlt
  have hsome : s.classes[t.classes.size]? = some _ := Array.getElem?_eq_getElem (by omega)
  have hnone : t.classes[t.classes.size]? = none := Array.getElem?_size
  cases hnone.symm.trans (h.classes hsome)

theorem instances_size (h : s.Persists t) : s.instances.size ≤ t.instances.size := by
  by_contra hlt
  have hsome : s.instances[t.instances.size]? = some _ := Array.getElem?_eq_getElem (by omega)
  have hnone : t.instances[t.instances.size]? = none := Array.getElem?_size
  obtain ⟨p, hp, -⟩ := h.types hsome
  cases hnone.symm.trans hp

/-- A class has the attributes that it had, its own and those it derives. -/
theorem attribute? (h : s.Persists t) {id : Nat} (hid : id < s.classes.size) (name : String) :
    t.attribute? id name = s.attribute? id name := by
  induction id using Nat.strongRecOn with
  | ind id ih =>
    have hclass : s.classes[id]? = some s.classes[id] := Array.getElem?_eq_getElem hid
    rw [Store.attribute?, Store.attribute?, hclass, h.classes hclass]
    dsimp only
    split
    · rfl
    split
    · rfl
    split
    · next hlt => exact ih _ hlt (hlt.trans hid)
    · rfl

theorem list (s : Store) (elements : Array Value) :
    s.Persists { s with lists := s.lists.push elements } :=
  { refl s with lists := by simp }

theorem function (s : Store) (f : Function) :
    s.Persists { s with functions := s.functions.push f } :=
  { refl s with functions := fun h => getElem?_push_of_some h f }

theorem type (s : Store) (c : Class) : s.Persists { s with classes := s.classes.push c } :=
  { refl s with classes := fun h => getElem?_push_of_some h c }

theorem module (s : Store) (k : Module) : s.Persists { s with modules := s.modules.push k } :=
  { refl s with modules := fun h => getElem?_push_of_some h k }

theorem object (s : Store) (o : Instance) :
    s.Persists { s with instances := s.instances.push o } :=
  { refl s with types := fun h => ⟨_, getElem?_push_of_some h o, rfl⟩ }

theorem field (s : Store) (id : Nat) (name : String) (v : Value) :
    s.Persists { s with
      instances := s.instances.modify id fun o => { o with fields := o.fields.put name v } } := by
  refine { refl s with types := fun {id' o} h => ?_ }
  by_cases heq : id = id'
  · exact ⟨{ o with fields := o.fields.put name v }, by simp [Array.getElem?_modify, heq, h], rfl⟩
  · exact ⟨o, by simp [Array.getElem?_modify, heq, h], rfl⟩

theorem editList (s : Store) (id : Nat) (f : Array Value → Array Value) :
    s.Persists { s with lists := s.lists.modify id f } :=
  { refl s with lists := by simp }

end Persists

/-- No step reaches a class, a module or a function that is there. -/
theorem Step.persists {s t : Store} (h : s.Step t) : s.Persists t := by
  cases h with
  | list elements => exact .list s elements
  | function f _ => exact .function s f
  | type c => exact .type s c
  | module k => exact .module s k
  | object o => exact .object s o
  | field id name v => exact .field s id name v
  | editList id f => exact .editList s id f
  | _ => exact { Persists.refl s with }

theorem Leads.persists {s t : Store} (h : s.Leads t) : s.Persists t := by
  induction h with
  | refl => exact .refl s
  | tail _ step ih => exact ih.trans step.persists

end Store

namespace Evaluator

/-- To look an attribute of a class up is to look in its table and in those it derives from. -/
theorem getAttribute_type_eq_ok {id : Nat} {name : String} {span : Span} {m : Machine} {v : Value} :
    getAttribute (.type id) name span m = .ok v m ↔ m.store.attribute? id name = some v := by
  have hread : (attribute? (.type id) name : Eval (Option Value)) m =
      .ok (m.store.attribute? id name) m := rfl
  unfold getAttribute
  dsimp only
  rw [bind_of_ok hread]
  cases m.store.attribute? id name with
  | some w => exact ⟨fun h => by cases h; rfl, fun h => by cases h; rfl⟩
  | none => exact ⟨nofun, nofun⟩

theorem getAttribute_module_eq_ok {id : Nat} {name : String} {span : Span} {m : Machine}
    {v : Value} :
    getAttribute (.module id) name span m = .ok v m ↔
      (m.store.modules[id]? >>= (·.attributes.get? name)) = some v := by
  have hread : Eval.store m = .ok m.store m := rfl
  unfold getAttribute
  dsimp only
  rw [bind_of_ok hread]
  cases m.store.modules[id]? >>= (·.attributes.get? name) with
  | some w => exact ⟨fun h => by cases h; rfl, fun h => by cases h; rfl⟩
  | none => exact ⟨nofun, nofun⟩

end Evaluator

/-- What the run of a program consists of. -/
inductive Deed where
  | eval (e : Syntax.Expr) (env : Nat)
  | exec (s : Syntax.Stmt) (env : Nat)
  | call (callee : Value) (arguments : List Value) (span : Span)

namespace Deed

/-- Does it, whatever comes of it. -/
def run (ev : Evaluator) : Deed → Eval Unit
  | eval e env => do let _ ← e.eval ev env
  | exec s env => do let _ ← s.exec ev env
  | call callee arguments span => do let _ ← ev.call callee arguments span

/-- No statement in it is misplaced. -/
def Checked : Deed → Prop
  | eval e _ => e.check = .ok ()
  | exec s _ => ∃ c, s.check c = .ok ()
  | call _ _ _ => True

theorem run_abides {R : Regime} {ev ev' : Evaluator} (h : R.Governs Set.univ ev ev') {deed : Deed}
    (hc : deed.Checked) : R.Abides Set.univ (deed.run ev) (deed.run ev') := by
  cases deed with
  | eval e env =>
    exact .bind (Syntax.Expr.eval_abides h (Set.mem_univ env) e hc) fun _ _ => .done _
  | exec s env =>
    obtain ⟨c, hc⟩ := hc
    exact .bind (Syntax.Stmt.exec_abides h c (Set.mem_univ env) s hc) fun _ _ => .done _
  | call callee arguments span => exact .bind (h.call callee arguments span) fun _ _ => .done _

theorem run_within (settings : Settings) (fuel : Nat) {deed : Deed} (hc : deed.Checked) {m : Machine}
    (hm : m.store.Checked) : m.Within Set.univ ((deed.run (.ofFuel settings fuel)).after m) :=
  (run_abides (Evaluator.ofFuel_alike settings fuel) hc m hm trivial).within

/-- Whatever is done, and wherever it ends, the keys of dicts stay proper. -/
theorem run_dictsProper (settings : Settings) (fuel : Nat) {deed : Deed} (hc : deed.Checked)
    {m : Machine} (hm : m.store.Checked) (hdicts : m.store.DictsProper) :
    ((deed.run (.ofFuel settings fuel)).after m).store.DictsProper :=
  (run_within settings fuel hc hm).dicts hdicts

end Deed

/-- Classes and modules are immutable. Whatever is done in a state that a session can get into, and
however it ends, every class and module from before keeps its name, the class it derives from and
its table of attributes, so that their attributes are the same in every state from then on. Functions
stay as they are too, instances in their classes, and frames keep their parents and their variables:
nothing is written but elements, entries, fields and the contents of variables. -/
theorem classes_and_modules_persist {settings : Settings} {session : Session}
    (h : session.Reachable settings) {m : Machine} (hlead : session.machine.store.Leads m.store)
    (fuel : Nat) {deed : Deed} (hc : deed.Checked) :
    let n := (deed.run (.ofFuel settings fuel)).after m
    m.store.Leads n.store ∧ m.store.Persists n.store ∧
      (∀ (id : Nat) f, m.store.frames[id]? = some f →
        ∃ g, n.store.frames[id]? = some g ∧ Frame.Grows f g) ∧
      ∀ o : Machine, n.store.Leads o.store → m.store.Persists o.store ∧ ∀ name span v,
        (∀ id < m.store.classes.size, Evaluator.getAttribute (.type id) name span m = .ok v m ↔
          Evaluator.getAttribute (.type id) name span o = .ok v o) ∧
        (∀ id < m.store.modules.size, Evaluator.getAttribute (.module id) name span m = .ok v m ↔
          Evaluator.getAttribute (.module id) name span o = .ok v o) := by
  intro n
  have hchecked : m.store.Checked := hlead.checked h.checked
  have hrun := Deed.run_within settings fuel hc hchecked
  have hleads : m.store.Leads n.store := hrun.leads.toStore
  refine ⟨hleads, hleads.persists, fun id f hf => hrun.confined.grows hf, fun o hlater => ?_⟩
  have hpersists : m.store.Persists o.store := hleads.persists.trans (Store.Leads.persists hlater)
  refine ⟨hpersists, fun name span v => ⟨fun id hid => ?_, fun id hid => ?_⟩⟩
  · rw [Evaluator.getAttribute_type_eq_ok, Evaluator.getAttribute_type_eq_ok,
      hpersists.attribute? hid]
  · have hmodule : m.store.modules[id]? = some m.store.modules[id] :=
      Array.getElem?_eq_getElem hid
    rw [Evaluator.getAttribute_module_eq_ok, Evaluator.getAttribute_module_eq_ok, hmodule,
      hpersists.modules hmodule]

/-- A function of a module writes a variable of the body in which it was declared. The variable
changes, and the attribute of the module is what it was. -/
theorem classes_and_modules_persist_body :
    let settings : Settings := ⟨9, false, fun _ => .error "no such file", #[]⟩
    let m := ((Session.start settings).runWith (.ofFuel settings 9)
      "module M \x7b x = 1 fun set() \x7b x = 2 \x7d \x7d").2.machine
    let n := (Deed.run (.ofFuel settings 9) (.call (.function 0) [] ⟨0, 0⟩)).after m
    let body (s : Store) := s.functions[0]? >>= fun f => s.read? f.closure "x"
    body m.store = some (.int 1) ∧ body n.store = some (.int 2) ∧
      Evaluator.getAttribute (.module 0) "x" ⟨0, 0⟩ m = .ok (.int 1) m ∧
      Evaluator.getAttribute (.module 0) "x" ⟨0, 0⟩ n = .ok (.int 1) n := by
  intro settings m n body
  have hrun : body m.store = some (.int 1) ∧ body n.store = some (.int 2) ∧
      (m.store.modules[0]? >>= (·.attributes.get? "x")) = some (.int 1) ∧
      0 < m.store.modules.size := by
    decide +kernel
  obtain ⟨hbody, hbody', hattribute, hsize⟩ := hrun
  have hbefore : Evaluator.getAttribute (.module 0) "x" ⟨0, 0⟩ m = .ok (.int 1) m :=
    Evaluator.getAttribute_module_eq_ok.mpr hattribute
  have hreach := Session.Reachable.run 9 "module M \x7b x = 1 fun set() \x7b x = 2 \x7d \x7d"
    (Session.Reachable.start : (Session.start settings).Reachable settings)
  have hc : (Deed.call (.function 0) [] ⟨0, 0⟩).Checked := trivial
  have hpersist := (classes_and_modules_persist hreach .refl 9 hc).2.2.2 n .refl
  have hafter := ((hpersist.2 "x" ⟨0, 0⟩ (.int 1)).2 0 hsize).mp hbefore
  exact ⟨hbody, hbody', hbefore, hafter⟩

end Rill
