import Rill.Proofs.Agreement

/-! Sessions that can come about, and what holds in all of them. -/
namespace Rill

open Syntax (Program)
open Eval

namespace Store.Keeps

variable {homes : Set Nat}

theorem forIn {α : Type} {f : α → PUnit → Action (ForInStep PUnit)} (xs : List α)
    (h : ∀ x u, Keeps homes (f x u) fun r => r = .yield ⟨⟩) :
    Keeps homes (forIn xs ⟨⟩ f) fun _ => True := by
  induction xs with
  | nil => exact pure trivial
  | cons x xs ih =>
    rw [List.forIn_cons]
    refine bind (h x ⟨⟩) fun r hr => ?_
    rw [hr]
    exact ih

theorem checked_run {α : Type} {Q : α → Prop} {x : Action α} (h : Keeps homes x Q) :
    (x.run Store.empty).2.Checked :=
  (h Store.empty checked_empty).1.checked checked_empty

theorem dictsProper_run {α : Type} {Q : α → Prop} {x : Action α} (h : Keeps homes x Q) :
    (x.run Store.empty).2.DictsProper :=
  (h Store.empty checked_empty).1.dicts .empty

end Store.Keeps

namespace Session

theorem keeps_install : Store.Keeps {globals} install fun _ => True := by
  have hglobals : globals ∈ ({globals} : Set Nat) := Set.mem_singleton globals
  refine .bind (Store.keeps_newFrame _) fun _ _ => ?_
  refine .bind (.forIn _ fun c _ => ?_) fun _ _ => .bind (.forIn _ fun f _ => ?_) fun _ _ =>
    .pure trivial
  · exact .bind (Store.keeps_newClass _) fun _ _ => .bind (Store.keeps_bind hglobals _ _) fun _ _ =>
      .pure rfl
  · exact .bind (Store.keeps_bind hglobals _ _) fun _ _ => .pure rfl

theorem keeps_installHosts (number : Nat) (hosts : List HostFunction) :
    Store.Keeps {globals} (installHosts number hosts) fun _ => True := by
  have hglobals : globals ∈ ({globals} : Set Nat) := Set.mem_singleton globals
  induction hosts generalizing number with
  | nil => exact .pure trivial
  | cons f fs ih => exact .bind (Store.keeps_bind hglobals _ _) fun _ _ => ih (number + 1)

theorem keeps_setup (settings : Settings) : Store.Keeps {globals} (setup settings) fun _ => True :=
  .bind keeps_install fun _ _ => keeps_installHosts 0 _

theorem store_start (settings : Settings) :
    (start settings).machine.store = ((setup settings).run Store.empty).2 := by
  unfold start
  dsimp only

theorem checked_start (settings : Settings) : (start settings).machine.store.Checked := by
  rw [store_start]
  exact (keeps_setup settings).checked_run

theorem dictsProper_start (settings : Settings) : (start settings).machine.store.DictsProper := by
  rw [store_start]
  exact (keeps_setup settings).dictsProper_run

/-- The sessions that come about under some settings: sources are run one after another, for any
time, and the host binds global variables to values of its own. -/
inductive Reachable (settings : Settings) : Session → Prop
  | start : Reachable settings (start settings)
  | run {session : Session} (fuel : Nat) (source : String) : Reachable settings session →
      Reachable settings (session.runWith (.ofFuel settings fuel) source).2
  | define {session : Session} {v : Value} {s : Store} (name : String) (value : HostValue) :
      Reachable settings session → value.toValue session.machine.store = .ok v s →
      Reachable settings ((session.onStore (set s)).2.define name v)
  | takeOutput {session : Session} : Reachable settings session →
      Reachable settings session.takeOutput.2

/-- Runs of the same checked program under evaluators that agree are the same. They lead the machine
on, with proper keys in its dicts, and do not end in a defect. -/
theorem runProgram_agrees {ev ev' : Evaluator} (h : ev.Alike ev') {session : Session}
    (hs : session.machine.store.Checked) {program : Program} (hc : program.check = .ok ()) :
    session.runProgram ev program = session.runProgram ev' program ∧
      session.machine.Within Set.univ (session.runProgram ev program).2.machine ∧
      (session.runProgram ev program).1 ≠ .error (.halted .defect) := by
  rcases runProgram_abides h (Set.mem_univ globals) hs trivial hc with
    ⟨hrun, hne, hwithin⟩ | ⟨halt, n, r, hrun, hrun', hwithin, rfl, hne⟩
  · exact ⟨hrun, hwithin, hne .defect⟩
  · rw [hrun, hrun']
    refine ⟨rfl, hwithin, fun hd => hne ?_⟩
    injection hd with hd
    injection hd

/-- So are runs of the same source. -/
theorem runWith_agrees {ev ev' : Evaluator} (h : ev.Alike ev') {session : Session}
    (hs : session.machine.store.Checked) (source : String) :
    session.runWith ev source = session.runWith ev' source ∧
      session.machine.Within Set.univ (session.runWith ev source).2.machine ∧
      (session.runWith ev source).1 ≠ .error (.halted .defect) := by
  rcases runWith_cases session source with ⟨failure, hne, hrun⟩ | ⟨program, hc, hrun⟩
  · rw [hrun, hrun]
    refine ⟨rfl, .refl _, fun hd => hne .defect ?_⟩
    injection hd
  · rw [hrun, hrun]
    exact runProgram_agrees h hs hc

/-- To bind a variable to a value of the host is to make that value, and maybe the variable. -/
theorem within_define {session : Session} (hs : session.machine.store.Checked) {value : HostValue}
    {v : Value} {s : Store} (hv : value.toValue session.machine.store = .ok v s) (name : String) :
    session.machine.store.Within Set.univ
      ((session.onStore (set s)).2.define name v).machine.store := by
  have hwithin : session.machine.store.Within ∅ s := by
    simpa only [hv] using HostValue.safe_toValue value session.machine.store hs
  have hbind := (Store.keeps_bind (Set.mem_univ globals) name v s (hwithin.checked hs)).1
  exact (hwithin.mono (Set.empty_subset _)).trans hbind

/-- The sessions that come about under some settings if programs need not have been read from a
source. All of them are between two runs. -/
inductive Between (settings : Settings) : Session → Prop
  | start : Between settings (start settings)
  | run {session : Session} (fuel : Nat) {p : Program} : Between settings session →
      p.check = .ok () → Between settings (session.runProgram (.ofFuel settings fuel) p).2
  | define {session : Session} {v : Value} {s : Store} (name : String) (value : HostValue) :
      Between settings session → value.toValue session.machine.store = .ok v s →
      Between settings ((session.onStore (set s)).2.define name v)
  | takeOutput {session : Session} : Between settings session →
      Between settings session.takeOutput.2

namespace Between

variable {settings : Settings} {session : Session}

theorem checked (h : session.Between settings) : session.machine.store.Checked := by
  induction h with
  | start => exact checked_start settings
  | run fuel _ hp ih =>
    exact (runProgram_agrees (Evaluator.ofFuel_alike settings fuel) ih hp).2.1.checked ih
  | define name value _ hv ih => exact (within_define ih hv name).checked ih
  | takeOutput _ ih => exact ih

theorem leads (h : session.Between settings) :
    (Session.start settings).machine.store.Leads session.machine.store := by
  induction h with
  | start => exact .refl
  | run fuel hbetween hp ih =>
    have hev := Evaluator.ofFuel_alike settings fuel
    exact ih.trans (runProgram_agrees hev hbetween.checked hp).2.1.leads.toStore
  | define name value hbetween hv ih => exact ih.trans (within_define hbetween.checked hv name).leads
  | takeOutput _ ih => exact ih

/-- No call and no inclusion is in progress. -/
theorem idle (h : session.Between settings) :
    session.machine.calls = #[] ∧ session.machine.includes = [] := by
  induction h with
  | start => exact ⟨rfl, rfl⟩
  | run fuel hbetween hp ih =>
    have hev := Evaluator.ofFuel_alike settings fuel
    obtain ⟨-, hwithin, -⟩ := runProgram_agrees hev hbetween.checked hp
    exact ⟨hwithin.leads.calls.trans ih.1, hwithin.leads.includes.trans ih.2⟩
  | define name value _ _ ih => exact ih
  | takeOutput _ ih => exact ih

theorem dictsProper (h : session.Between settings) : session.machine.store.DictsProper := by
  induction h with
  | start => exact dictsProper_start settings
  | run fuel hbetween hp ih =>
    have hev := Evaluator.ofFuel_alike settings fuel
    exact (runProgram_agrees hev hbetween.checked hp).2.1.dicts ih
  | define name value hbetween hv ih => exact (within_define hbetween.checked hv name).dicts ih
  | takeOutput _ ih => exact ih

end Between

namespace Reachable

variable {settings : Settings} {session : Session}

theorem between (h : session.Reachable settings) : session.Between settings := by
  induction h with
  | start => exact .start
  | @run session fuel source _ ih =>
    rcases session.runWith_cases source with ⟨failure, -, hrun⟩ | ⟨program, hc, hrun⟩
    · rw [hrun]
      exact ih
    · rw [hrun]
      exact ih.run fuel hc
  | define name value _ hv ih => exact ih.define name value hv
  | takeOutput _ ih => exact ih.takeOutput

/-- In every session that comes about, all functions have checked bodies. -/
theorem checked (h : session.Reachable settings) : session.machine.store.Checked :=
  h.between.checked

/-- All that a session has made is made of what it started with. -/
theorem leads (h : session.Reachable settings) :
    (Session.start settings).machine.store.Leads session.machine.store :=
  h.between.leads

/-- Between runs no call and no inclusion is in progress. -/
theorem idle (h : session.Reachable settings) :
    session.machine.calls = #[] ∧ session.machine.includes = [] :=
  h.between.idle

/-- The keys of every dict are distinct, and each is the key of its value. -/
theorem dictsProper (h : session.Reachable settings) : session.machine.store.DictsProper :=
  h.between.dictsProper

end Reachable

end Session
end Rill
