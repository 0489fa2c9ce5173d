import Rill.Proofs.Reachable
import Rill.Proofs.Veil.Runs

/-! Sessions whose host makes up no values, and what holds in all of them. -/
namespace Rill

open Eval Veil

namespace BuiltinClass

/-- Each built-in class but the first derives from one before it. -/
theorem superclass_lt (c : BuiltinClass) :
    (c.superclass = none → c = object) ∧ ∀ parent, c.superclass = some parent →
      parent.number < c.number := by
  cases c <;> decide

theorem number_eq {id : Nat} {c : BuiltinClass} (h : all[id]? = some c) : c.number = id := by
  have hlt : id < all.length := (List.getElem?_eq_some_iff.mp h).1
  have hnodup : all.Nodup := by decide
  exact ((List.getElem?_inj hlt hnodup).mp (h.trans (all_getElem?_number c).symm)).symm

end BuiltinClass

namespace Session

variable {V : Veil}

/-- The classes that every program starts with are the built-in ones. -/
theorem classes_install : (install.run Store.empty).2.classes =
    (BuiltinClass.all.map builtinClass).toArray := by
  decide +kernel

theorem cells_install : (install.run Store.empty).2.cells =
    (BuiltinClass.all.map (fun c => Value.type c.number) ++
      GlobalFunction.all.map fun f => Value.native (.builtin (.global f))).toArray := by
  decide +kernel

/-- There is nothing else yet. -/
theorem empty_install :
    let s := (install.run Store.empty).2
    s.lists = #[] ∧ s.dicts = #[] ∧ s.functions.size = 0 ∧ s.modules.size = 0 ∧
      s.instances.size = 0 := by
  decide +kernel

theorem known_builtinClass (s : Store) (c : BuiltinClass) :
    (builtinClass c).attributes.All fun _ v => v.Known V s := by
  apply Table.All.ofList
  intro e he
  obtain ⟨b, -, rfl⟩ := List.mem_map.mp he
  trivial

theorem getElem?_classes_install (id : Nat) :
    (install.run Store.empty).2.classes[id]? = BuiltinClass.all[id]?.map builtinClass := by
  rw [classes_install, List.getElem?_toArray, List.getElem?_map]

theorem sound_install : (install.run Store.empty).2.Sound .lifted := by
  obtain ⟨hlists, hdicts, hfunctions, hmodules, hobjects⟩ := empty_install
  have hclass (c : BuiltinClass) :
      (install.run Store.empty).2.classes[c.number]? = some (builtinClass c) := by
    rw [getElem?_classes_install, BuiltinClass.all_getElem?_number]
    rfl
  constructor
  · constructor
    · rw [cells_install]
      intro v hv
      rcases List.mem_append.mp (List.mem_toArray.mp hv) with hv | hv
      · obtain ⟨c, -, rfl⟩ := List.mem_map.mp hv
        exact (Array.getElem?_eq_some_iff.mp (hclass c)).1
      · obtain ⟨f, -, rfl⟩ := List.mem_map.mp hv
        trivial
    · simp [hlists]
    · simp [hdicts]
    · simp [Array.eq_empty_of_size_eq_zero hfunctions]
    · rw [classes_install]
      intro c hc
      obtain ⟨b, -, rfl⟩ := List.mem_map.mp (List.mem_toArray.mp hc)
      exact known_builtinClass _ b
    · simp [Array.eq_empty_of_size_eq_zero hmodules]
    · simp [Array.eq_empty_of_size_eq_zero hobjects]
  · exact hclass
  · intro id c hc
    rw [getElem?_classes_install] at hc
    obtain ⟨b, hb, rfl⟩ := Option.map_eq_some_iff.mp hc
    obtain ⟨hroot, hparent⟩ := b.superclass_lt
    have hid : b.number = id := BuiltinClass.number_eq hb
    constructor
    · intro hnone
      rw [← hid, hroot (Option.map_eq_none_iff.mp hnone)]
    · intro parent hsome
      obtain ⟨p, hp, rfl⟩ := Option.map_eq_some_iff.mp hsome
      exact hid ▸ hparent p hp
  · simp [Array.eq_empty_of_size_eq_zero hobjects]
  · exact fun _ hid => hid.elim
  · exact fun _ hid => hid.elim
  · exact fun _ hid => hid.elim

theorem acts_installHosts (hosts : List HostFunction) (number : Nat) (s : Store) :
    V.Acts s Any (installHosts number hosts) := by
  induction hosts generalizing number s with
  | nil => exact .done _
  | cons f fs ih =>
    have hknown : Value.Known V s (.native (.host ⟨f.name, f.arity, number⟩)) := trivial
    exact .bind (acts_bind hknown globals f.name) fun t _ _ _ _ => ih (number + 1) t

/-- What follows an action acts on what that leaves. -/
theorem acts_after {α : Type} {Q : Store → Unit → Prop} {x : Store.Action α}
    {y : Store.Action Unit} {s : Store} (hx : (x.run s).2.Sound V) (hy : V.Acts (x.run s).2 Q y) :
    ((do let _ ← x; y : Store.Action Unit).run s).2.Sound V :=
  Store.Moves.sound (hy _ (.refl _) hx).1 hx

theorem sound_start (settings : Settings) : (start settings).machine.store.Sound .lifted := by
  rw [store_start]
  exact acts_after sound_install (acts_installHosts settings.hosts.toList 0 _)

/-- A run of a source takes steps under a veil, and leaves the calls that it enters. An exception
that it ends with is a proper one. -/
theorem runWith_follows {ev : Evaluator} (h : V.Governs ev) {session : Session}
    (hs : session.machine.store.Sound V) (source : String) :
    session.machine.Follows V (session.runWith ev source).2.machine ∧
      ∀ halt, (session.runWith ev source).1 = .error (.halted halt) →
        halt.Proper V (session.runWith ev source).2.machine.store := by
  rcases runWith_cases session source with ⟨failure, hne, hrun⟩ | ⟨program, -, hrun⟩
  · rw [hrun]
    refine ⟨.refl _, fun halt heq => absurd ?_ (hne halt)⟩
    injection heq
  · have hruns := runStatements_runs h (Value.Known.null session.machine.store) program
    rw [hrun, runProgram_eq]
    cases hr : runStatements ev .null program session.machine with
    | ok v n => exact ⟨((hruns.now hs).of_ok hr).1, nofun⟩
    | error halt n =>
      obtain ⟨hfollows, hproper⟩ := (hruns.now hs).of_error hr
      refine ⟨hfollows, fun _ heq => ?_⟩
      cases heq
      exact hproper

/-- The sessions that come about under some settings if the host makes up no values: sources are run
one after another, for any time, and the host binds global variables to values of its own, or to
such as it got. -/
inductive Arises (settings : Settings) : Session → Prop
  | start : Arises settings (start settings)
  | run {session : Session} (fuel : Nat) (source : String) : Arises settings session →
      Arises settings (session.runWith (.ofFuel settings fuel) source).2
  | define {session : Session} {v : Value} {s : Store} (name : String) (value : HostValue) :
      Arises settings session → (∀ w ∈ value.values, w.Known .lifted session.machine.store) →
      value.toValue session.machine.store = .ok v s →
      Arises settings ((session.onStore (set s)).2.define name v)
  | takeOutput {session : Session} : Arises settings session →
      Arises settings session.takeOutput.2

namespace Arises

variable {settings : Settings} {session : Session}

theorem reachable (h : session.Arises settings) : session.Reachable settings := by
  induction h with
  | start => exact .start
  | run fuel source _ ih => exact .run fuel source ih
  | define name value _ _ hv ih => exact .define name value ih hv
  | takeOutput _ ih => exact .takeOutput ih

/-- In every such session, all values are known. -/
theorem sound (hhosts : ∀ f ∈ settings.hosts, f.Honest) (h : session.Arises settings) :
    session.machine.store.Sound .lifted := by
  induction h with
  | start => exact sound_start settings
  | run fuel source _ ih =>
    have hev : Veil.lifted.Governs (.ofFuel settings fuel) :=
      Evaluator.ofFuel_keeps trivial rfl rfl hhosts fuel
    exact (runWith_follows hev ih source).1.sound ih
  | @define session v s name value _ hvalues hv ih =>
    obtain ⟨hmoves, hknown⟩ := (HostValue.tries_toValue value hvalues _ (.refl _) ih).of_ok hv
    have hs : s.Sound .lifted := Store.Moves.sound hmoves ih
    have hbind := acts_bind hknown globals name s (.refl s) hs
    exact Store.Moves.sound hbind.1 hs
  | takeOutput _ ih => exact ih

end Arises
end Session
end Rill
