import Rill.Proofs.Veil.Sessions
import Rill.Proofs.Veil.Toolkit

/-! Every exception is an instance of an exception class, and says truly what it is. -/
namespace Rill

open Text (Span)
open Eval Veil

variable {V : Veil}

namespace Store

/-- These are the class with that number and the classes that it derives from, each after one that
derives from it. The last derives from none. -/
inductive Lineage (s : Store) : Nat → List Nat → Prop
  | root {id : Nat} {c : Class} : s.classes[id]? = some c → c.superclass = none → Lineage s id [id]
  | derived {id parent : Nat} {c : Class} {rest : List Nat} : s.classes[id]? = some c →
      c.superclass = some parent → Lineage s parent rest → Lineage s id (id :: rest)

variable {s t : Store}

/-- Every class derives in the end from the first one. -/
theorem Sound.exists_lineage (hs : s.Sound V) {id : Nat} (hid : id < s.classes.size) :
    ∃ chain, s.Lineage id chain ∧ chain.getLast? = some BuiltinClass.object.number := by
  induction id using Nat.strongRecOn with
  | ind id ih =>
    have hclass : s.classes[id]? = some s.classes[id] := Array.getElem?_eq_getElem hid
    obtain ⟨hroot, hparent⟩ := hs.superclasses id _ hclass
    cases hsuper : s.classes[id].superclass with
    | none =>
      have hobject : id = BuiltinClass.object.number := hroot hsuper
      exact ⟨[id], .root hclass hsuper, by simp [hobject]⟩
    | some parent =>
      have hlt : parent < id := hparent parent hsuper
      obtain ⟨rest, hrest, hlast⟩ := ih parent hlt (hlt.trans hid)
      refine ⟨id :: rest, .derived hclass hsuper hrest, ?_⟩
      rw [List.getLast?_cons, hlast]
      rfl

/-- A class derives from the classes of its lineage, and from no others. -/
theorem Lineage.derivesFrom_iff (hs : s.Sound V) {id : Nat} {chain : List Nat}
    (h : s.Lineage id chain) (ancestor : Nat) :
    s.derivesFrom id ancestor = true ↔ ancestor ∈ chain := by
  induction h with
  | @root id c hclass hsuper =>
    have hnone : (s.classes[id]? >>= Class.superclass) = none := by
      rw [hclass]
      exact hsuper
    rw [derivesFrom, hnone]
    simp [eq_comm]
  | @derived id parent c rest hclass hsuper _ ih =>
    have hsome : (s.classes[id]? >>= Class.superclass) = some parent := by
      rw [hclass]
      exact hsuper
    have hlt : parent < id := (hs.superclasses id c hclass).2 parent hsuper
    rw [derivesFrom, hsome]
    dsimp only
    rw [if_pos hlt, List.mem_cons, ← ih]
    by_cases heq : id = ancestor
    · simp [heq]
    · simp [heq, Ne.symm heq]

/-- A store that a program can bring about from another: each step is one that programs take, made
of known values. -/
structure Reaches (s t : Store) : Prop where
  leads : s.Leads t
  moves : s.Moves .lifted t

theorem Reaches.refl (s : Store) : s.Reaches s := ⟨.refl, .refl⟩

end Store

/-- The program may not raise exceptions of its own. -/
def Veil.muted : Veil := { lifted with raises := False }

theorem Value.Known.muted {s : Store} {v : Value} (h : v.Known .lifted s) : v.Known .muted s :=
  h.reveil (fun _ _ h => h) fun _ _ h => h

/-- Whether exceptions may be raised is nothing to what is there. -/
theorem Store.Sound.muted {s : Store} (hs : s.Sound .lifted) : s.Sound .muted :=
  { hs with contents := { hs.contents.mono fun _ => Value.Known.muted with } }

/-- Every call of `raise` that raises something is refused. -/
def Refusal.raises : Refusal where
  call s callee arguments :=
    match Evaluator.nativeCall? callee arguments with
    | some (.builtin (.global .raise), all) =>
      GlobalFunction.raise.arity.accepts all.length && all.head?.any (Evaluator.raisable s)
    | _ => false
  access _ _ _ := false

namespace Eval

/-- What is raised for an instance is not raised by the language. -/
theorem endsUncaused_raiseWith {α : Type} (id : Nat) (span : Span) (text : Eval String)
    (m : Machine) : EndsUncaused (raiseWith (α := α) id span text m) := by
  cases hrun : text m with
  | ok message n =>
    refine ⟨_, _, raiseWith_of_ok hrun id span, ?_⟩
    rintro _ ⟨⟩
    rfl
  | error h n =>
    cases h with
    | exception e =>
      refine ⟨_, _, raiseWith_of_exception hrun id span, ?_⟩
      rintro _ ⟨⟩
      rfl
    | _ => exact ⟨_, _, raiseWith_of_halt hrun (by rintro _ ⟨⟩) id span, by rintro _ ⟨⟩⟩

end Eval

namespace Evaluator

theorem endsUncaused_raiseValue (ev : Evaluator) {v : Value} {m : Machine}
    (h : raisable m.store v = true) (span : Span) : EndsUncaused (ev.raiseValue v span m) := by
  cases v with
  | str message => exact endsUncaused_raiseWith _ span _ _
  | object id =>
    have hraise : ev.raiseValue (.object id) span m = ev.raiseInstance id span m :=
      congrFun (if_pos h) m
    rw [hraise]
    exact endsUncaused_raiseWith id span _ m
  | _ => cases h

/-- A call of `raise` that raises something ends the run. -/
theorem raises_fatal : Refusal.raises.Fatal where
  access _ _ _ := rfl
  call ev callee arguments span m h := by
    dsimp only [Refusal.raises] at h
    split at h
    · next all hcall =>
      obtain ⟨haccepts, hraisable⟩ := Bool.and_eq_true_iff.mp h
      rw [dispatch_builtin hcall haccepts]
      cases all with
      | nil => cases hraisable
      | cons v rest => exact endsUncaused_raiseValue ev hraisable span
    · cases h

/-- What is left raises no exceptions of its own. -/
theorem raises_upholds : Refusal.raises.Upholds .muted where
  access _ := fun _ hid => hid.elim
  call {s callee arguments f all} h hcall haccepts := by
    constructor
    · rintro rfl v hv hraisable
      have hrefused : Refusal.raises.call s callee arguments = true := by
        simp only [Refusal.raises, hcall, hv, Option.any_some, hraisable, Bool.and_true]
        exact haccepts
      rw [h] at hrefused
      cases hrefused
    · exact fun _ _ _ hid => hid.elim

end Evaluator

/-- If a run ends with an exception, then the language raised it unless the same run without calls
of `raise` is a defect. -/
theorem uncaused_iff {α : Type} {r r' : EStateM.Result Halt Machine α} {e : Exception} {n : Machine}
    (hr : r = .error (.exception e) n)
    (hlapse : r = r' ∨ (∃ o, r' = .error .defect o) ∧ EndsUncaused r)
    (hcaused : r' = .error (.exception e) n → e.cause ≠ none) :
    e.cause = none ↔ ∃ o, r' = .error .defect o := by
  subst hr
  rcases hlapse with rfl | ⟨hdefect, h, o, heq, hnone⟩
  · constructor
    · exact fun hnone => absurd hnone (hcaused rfl)
    · rintro ⟨o, heq⟩
      cases heq
  · cases heq
    exact ⟨fun _ => hdefect, fun _ => hnone e rfl⟩

namespace Deed

variable {settings : Settings} {deed : Deed} {m : Machine}

theorem Known.muted {s : Store} {deed : Deed} (h : deed.Known .lifted s) : deed.Known .muted s := by
  cases deed with
  | call callee arguments span => exact ⟨h.1.muted, fun v hv => (h.2 v hv).muted⟩
  | _ => trivial

/-- What a program does leads from one store that it can bring about to another. -/
theorem run_reaches (hhosts : ∀ f ∈ settings.hosts, f.Honest) (hc : deed.Checked)
    (hchecked : m.store.Checked) (hknown : deed.Known .lifted m.store)
    (hs : m.store.Sound .lifted) (fuel : Nat) :
    m.store.Reaches ((deed.run (.ofFuel settings fuel)).after m).store := by
  have hev : Veil.lifted.Governs (.ofFuel settings fuel) :=
    Evaluator.ofFuel_keeps trivial rfl rfl hhosts fuel
  have hrun := (run_runs hev hknown).now hs
  have hleads := (run_within settings fuel hc hchecked).leads
  exact ⟨hleads.toStore, hrun.follows.store⟩

/-- An exception with which it ends is a proper one. -/
theorem run_proper (hhosts : ∀ f ∈ settings.hosts, f.Honest) (hc : deed.Checked)
    (hchecked : m.store.Checked) (hknown : deed.Known .lifted m.store)
    (hs : m.store.Sound .lifted) {fuel : Nat} {e : Exception} {n : Machine}
    (hr : deed.run (.ofFuel settings fuel) m = .error (.exception e) n) :
    e.Proper n.store ∧
      (e.cause = none ↔ ∃ o, deed.run (.refusing .raises settings fuel) m = .error .defect o) := by
  have hev : Veil.lifted.Governs (.ofFuel settings fuel) :=
    Evaluator.ofFuel_keeps trivial rfl rfl hhosts fuel
  have hrun := (run_runs hev hknown).now hs
  refine ⟨((hrun.of_error hr).2 e rfl).1, uncaused_iff hr ?_ fun hr' => ?_⟩
  · have hfatal : True → Refusal.raises.Fatal := fun _ => Evaluator.raises_fatal
    have hlapse : deed.run (.ofFuel settings fuel) m =
          deed.run (.refusing .raises settings fuel) m ∨
        (∃ o, deed.run (.refusing .raises settings fuel) m = .error .defect o) ∧
          (True → EndsUncaused (deed.run (.ofFuel settings fuel) m)) :=
      run_refusing hfatal hc hchecked
    exact hlapse.imp_right fun ⟨hdefect, hends⟩ => ⟨hdefect, hends trivial⟩
  · -- where no exceptions may be raised, all that there are come from the language
    have hmuted := Evaluator.refusing_keeps Evaluator.raises_upholds hhosts fuel
    have hrun' := (run_runs hmuted hknown.muted).now hs.muted
    exact fun hnone => ((hrun'.of_error hr').2 e rfl).2 hnone

end Deed

namespace Session

variable {settings : Settings} {session : Session}

/-- An exception with which a run of a source ends is a proper one. -/
theorem runWith_proper (hhosts : ∀ f ∈ settings.hosts, f.Honest) (h : session.Arises settings)
    {fuel : Nat} {source : String} {e : Exception}
    (hr : (session.runWith (.ofFuel settings fuel) source).1 = .error (.halted (.exception e))) :
    e.Proper (session.runWith (.ofFuel settings fuel) source).2.machine.store ∧
      (e.cause = none ↔
        (session.runWith (.refusing .raises settings fuel) source).1 =
          .error (.halted .defect)) := by
  have hs := h.sound hhosts
  have hev : Veil.lifted.Governs (.ofFuel settings fuel) :=
    Evaluator.ofFuel_keeps trivial rfl rfl hhosts fuel
  have hproper := (runWith_follows hev hs source).2 _ hr e rfl
  have hmuted := Evaluator.refusing_keeps Evaluator.raises_upholds hhosts fuel
  have hcaused := (runWith_follows hmuted hs.muted source).2
  refine ⟨hproper.1, ?_⟩
  have hlapses := Evaluator.refusing_lapses (fun _ : True => Evaluator.raises_fatal) settings fuel
  rcases runWith_abides hlapses (Set.mem_univ globals) h.reachable.checked trivial source with
    ⟨hsame, hne, -⟩ | ⟨halt, n, r, hrefused, husual, -, hhalts⟩
  · rw [← hsame] at hr
    exact absurd hr (hne _)
  rw [hrefused]
  rw [husual] at hr
  rcases hhalts with rfl | ⟨rfl, hends⟩
  · cases hr
    have hcause := (hcaused _ (by rw [hrefused]) e rfl).2
    exact ⟨fun hnone => (hcause hnone).elim, nofun⟩
  · obtain ⟨k, o, rfl, hnone⟩ := hends trivial
    cases hr
    exact ⟨fun _ => rfl, fun _ => hnone e rfl⟩

theorem runWith_reaches (hhosts : ∀ f ∈ settings.hosts, f.Honest) (h : session.Arises settings)
    (fuel : Nat) (source : String) : session.machine.store.Reaches
      (session.runWith (.ofFuel settings fuel) source).2.machine.store := by
  have hev : Veil.lifted.Governs (.ofFuel settings fuel) :=
    Evaluator.ofFuel_keeps trivial rfl rfl hhosts fuel
  have hagrees := runWith_agrees (Evaluator.ofFuel_alike settings fuel) h.reachable.checked source
  exact ⟨hagrees.2.1.leads.toStore, (runWith_follows hev (h.sound hhosts) source).1.store⟩

end Session

/-- Every exception is an instance of an exception class. In every store that a program can bring
about, the classes that a class derives from are finitely many, and the last of them is the first
built-in class. Whatever a program does leads to such a store again. If it ends with an exception,
then the instance exists and its class derives from the class of exceptions and has the name that is
given. The exception has a cause if the language raised it, so unless there is a defect where calls
of `raise` are; and then its class is that of the cause, and its field `message` holds its
message. -/
theorem exceptions_proper {settings : Settings} (hhosts : ∀ f ∈ settings.hosts, f.Honest)
    {session : Session} (h : session.Arises settings) {m : Machine}
    (hm : session.machine.store.Reaches m.store) (fuel : Nat) :
    (∀ id < m.store.classes.size, ∃ chain, m.store.Lineage id chain ∧
      chain.getLast? = some BuiltinClass.object.number ∧
      ∀ ancestor, m.store.derivesFrom id ancestor = true ↔ ancestor ∈ chain) ∧
    (∀ deed : Deed, deed.Checked → deed.Known .lifted m.store →
      m.store.Reaches ((deed.run (.ofFuel settings fuel)).after m).store ∧
      ∀ e n, deed.run (.ofFuel settings fuel) m = .error (.exception e) n →
        e.Proper n.store ∧ (e.cause = none ↔
          ∃ o, deed.run (.refusing .raises settings fuel) m = .error .defect o)) ∧
    ∀ source,
      let ended := session.runWith (.ofFuel settings fuel) source
      session.machine.store.Reaches ended.2.machine.store ∧
      ∀ e, ended.1 = .error (.halted (.exception e)) →
        e.Proper ended.2.machine.store ∧ (e.cause = none ↔
          (session.runWith (.refusing .raises settings fuel) source).1 =
            .error (.halted .defect)) := by
  have hs : m.store.Sound .lifted := Store.Moves.sound hm.moves (h.sound hhosts)
  have hchecked : m.store.Checked := hm.leads.checked h.reachable.checked
  refine ⟨fun id hid => ?_, fun deed hc hknown => ⟨?_, fun e n hr => ?_⟩, fun source => ?_⟩
  · obtain ⟨chain, hchain, hlast⟩ := hs.exists_lineage hid
    exact ⟨chain, hchain, hlast, hchain.derivesFrom_iff hs⟩
  · exact Deed.run_reaches hhosts hc hchecked hknown hs fuel
  · exact Deed.run_proper hhosts hc hchecked hknown hs hr
  · exact ⟨Session.runWith_reaches hhosts h fuel source, fun e hr =>
      Session.runWith_proper hhosts h hr⟩

/-- The exception with which a run ended. -/
def Failure.exception? : Except Failure Value → Option Exception
  | .error (.halted (.exception e)) => some e
  | _ => none

theorem Failure.exception?_eq_some {result : Except Failure Value} {e : Exception}
    (h : exception? result = some e) : result = .error (.halted (.exception e)) := by
  unfold exception? at h
  split at h
  · cases h
    rfl
  · cases h

/-- An instance of a class of the program is raised in one run, and the language raises an exception
in another. -/
theorem exceptions_proper_raised :
    let settings : Settings := ⟨9, false, fun _ => .error "no such file", Host.toolkit.toArray⟩
    let session := Session.start settings
    let ended (source : String) := session.runWith (.ofFuel settings 9) source
    let refused (source : String) := session.runWith (.refusing .raises settings 9) source
    let raising := "class Bad(Exception) \x7b \x7d raise(new Bad(\"no\"))"
    (∃ e, (ended raising).1 = .error (.halted (.exception e)) ∧ e.className = "Bad" ∧
      e.message = "no" ∧ e.cause = none ∧ e.Proper (ended raising).2.machine.store ∧
      (refused raising).1 = .error (.halted .defect)) ∧
    (∃ e, (ended "1 / 0").1 = .error (.halted (.exception e)) ∧ e.className = "DivByZero" ∧
      e.cause ≠ none ∧ e.Proper (ended "1 / 0").2.machine.store ∧
      (refused "1 / 0").1 ≠ .error (.halted .defect)) ∧
    ∃ chain, session.machine.store.Lineage BuiltinClass.overflow.number chain ∧
      chain.getLast? = some BuiltinClass.object.number := by
  intro settings session ended refused raising
  have hhosts : ∀ f ∈ settings.hosts, f.Honest := by
    intro f hf
    exact Host.honest_toolkit f (List.mem_toArray.mp hf)
  have harises : session.Arises settings := .start
  obtain ⟨hchains, -, hruns⟩ := exceptions_proper hhosts harises (.refl session.machine.store) 9
  have hproper {source : String} {e : Exception}
      (he : Failure.exception? (ended source).1 = some e) :
      (ended source).1 = .error (.halted (.exception e)) ∧
        e.Proper (ended source).2.machine.store ∧
          (e.cause = none ↔ (refused source).1 = .error (.halted .defect)) := by
    have hended := Failure.exception?_eq_some he
    exact ⟨hended, (hruns source).2 e hended⟩
  have hraising : (Failure.exception? (ended raising).1).map
      (fun e => (e.className, e.message, e.cause.isSome)) = some ("Bad", "no", false) := by
    decide +kernel
  have hdividing : (Failure.exception? (ended "1 / 0").1).map
      (fun e => (e.className, e.cause.isSome)) = some ("DivByZero", true) := by
    decide +kernel
  refine ⟨?_, ?_, ?_⟩
  · obtain ⟨e, he, hsaid⟩ := Option.map_eq_some_iff.mp hraising
    simp only [Prod.mk.injEq, Option.isSome_eq_false_iff, Option.isNone_iff_eq_none] at hsaid
    obtain ⟨hended, hproper, hrefused⟩ := hproper he
    exact ⟨e, hended, hsaid.1, hsaid.2.1, hsaid.2.2, hproper, hrefused.mp hsaid.2.2⟩
  · obtain ⟨e, he, hsaid⟩ := Option.map_eq_some_iff.mp hdividing
    simp only [Prod.mk.injEq] at hsaid
    have hcause : e.cause ≠ none := Option.isSome_iff_ne_none.mp hsaid.2
    obtain ⟨hended, hproper, hrefused⟩ := hproper he
    exact ⟨e, hended, hsaid.1, hcause, hproper, fun hdefect => hcause (hrefused.mpr hdefect)⟩
  · have hlt : BuiltinClass.overflow.number < session.machine.store.classes.size :=
      (Session.sound_start settings).builtin_lt .overflow
    obtain ⟨chain, hchain, hlast, -⟩ := hchains _ hlt
    exact ⟨chain, hchain, hlast⟩

end Rill
