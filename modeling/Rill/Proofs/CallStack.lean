import Rill.Proofs.Reachable

/-! Calls and inclusions in progress are left however they end, and exceptions tell of them. -/
namespace Rill

open Text (Span)
open Syntax (Expr Stmt checkAll execAll includeFile)
open Eval

/-- What an exception says of the calls in progress where it comes out: it names those that were in
progress there, and others that they made. There are no more than `limit`, but for the one call
too many that the language itself refuses. -/
structure Exception.Traces (limit : Nat) (calls : Array CallFrame) (e : Exception) : Prop where
  starts : calls.toList <+: e.traceback.toList
  size_le : e.traceback.size ≤ limit + 1
  overflow : e.traceback.size = limit + 1 →
    e.cause = some (.stackOverflow limit) ∧ e.code = "RT017"

theorem Exception.Traces.ofSize {limit : Nat} {e : Exception} (h : e.traceback.size ≤ limit) :
    e.Traces limit e.traceback where
  starts := List.prefix_rfl
  size_le := Nat.le_succ_of_le h
  overflow hsize := by omega

theorem Exception.Traces.ofPush {limit : Nat} {calls : Array CallFrame} {frame : CallFrame}
    {e : Exception} (h : e.Traces limit (calls.push frame)) : e.Traces limit calls where
  starts := by
    have hpush : calls.toList <+: (calls.push frame).toList := by simp
    exact hpush.trans h.starts
  size_le := h.size_le
  overflow := h.overflow

/-- However a computation ended that began in `m`, it has left all calls and inclusions that it
entered. -/
def Machine.Restored {α : Type} (limit : Nat) (m : Machine) : EStateM.Result Halt Machine α → Prop
  | .ok _ n => n.calls = m.calls ∧ n.includes = m.includes
  | .error h n => n.calls = m.calls ∧ n.includes = m.includes ∧
      ∀ e, h = .exception e → e.Traces limit m.calls

/-- The regime in which exceptions tell of the calls in progress, of which there are at most
`limit`. -/
def tracing (limit : Nat) : Regime :=
  .same (fun calls => calls.size ≤ limit)
    (fun calls h => ∀ e, h = .exception e → e.Traces limit calls)
    (fun _ => nofun)
    (fun e hsize e' he => by cases he; exact .ofSize hsize)
    fun _ _ _ h e he => (h e he).ofPush

theorem tracing_bounds (limit : Nat) : (tracing limit).Bounds limit where
  starts {calls} frame _ hle := by
    change (calls.push frame).size ≤ limit
    simpa using hle
  overflow {m frame e} hs hlt htrace hcause := by
    refine ⟨rfl, fun e' he => ?_⟩
    cases he
    have hs : m.calls.size ≤ limit := hs
    have hsize : e.traceback.size = limit + 1 := by
      rw [htrace, Array.size_push]
      omega
    have hcode : e.code = "RT017" := by
      rw [Exception.code, hcause]
      rfl
    exact ⟨by simp [htrace], Nat.le_of_eq hsize, fun _ => ⟨hcause, hcode⟩⟩

theorem tracing_letsExit (limit : Nat) : (tracing limit).LetsExit := by
  refine fun m code => ⟨rfl, fun e he => ?_⟩
  cases he

theorem Regime.AbidesWith.restored {α : Type} {limit : Nat} {homes : Set Nat} {Q : α → Prop}
    {x y : Eval α} (h : (tracing limit).AbidesWith homes Q x y) {m : Machine}
    (hm : m.store.Checked) (hsize : m.calls.size ≤ limit) : m.Restored limit (x m) := by
  cases hx : x m with
  | ok a n =>
    obtain ⟨-, hwithin, -⟩ := (h m hm hsize).of_ok hx
    exact ⟨hwithin.leads.calls, hwithin.leads.includes⟩
  | error halt n =>
    obtain ⟨hwithin, -, htraces⟩ := (h m hm hsize).of_error hx
    exact ⟨hwithin.leads.calls, hwithin.leads.includes, htraces⟩

namespace Evaluator

/-- The evaluator for which it is a defect of the language if a call does its work while too many are
in progress. -/
def guarded (settings : Settings) (fuel : Nat) : Evaluator :=
  ofDispatch (fun ev callee arguments span => do
    if settings.maxCallDepth < (← get).calls.size then defect
    else ev.dispatch callee arguments span) (fun _ => return ()) unwatched
    settings fuel

theorem guarded_traces (settings : Settings) (fuel : Nat) :
    (tracing settings.maxCallDepth).Governs Set.univ (ofFuel settings fuel)
      (guarded settings fuel) := by
  unfold ofFuel guarded
  rw [ofFuelWith_eq]
  refine ofDispatch_governs rfl rfl unwatched_abides (fun _ => trivial) (tracing_bounds _) ?_ fuel
    fun _ => Set.mem_univ _
  intro homes ev ev' _ h callee arguments span m hm hs
  have hdispatch := dispatch_abides h callee arguments span (fun _ => tracing_letsExit _) m hm hs
  have hnot : ¬settings.maxCallDepth < m.calls.size := Nat.not_lt.mpr hs
  exact hdispatch.after (.refl m) rfl (congrFun (if_neg hnot) m)

theorem ofFuel_traces (settings : Settings) (fuel : Nat) :
    (tracing settings.maxCallDepth).Governs Set.univ (ofFuel settings fuel)
      (ofFuel settings fuel) :=
  ofFuelWith_governs rfl rfl (fun _ => trivial) (tracing_bounds _) (tracing_letsExit _) fuel
    fun _ => Set.mem_univ _

end Evaluator

/-- Whatever is evaluated, executed, called, rendered or included in a state that a session can get
into, in the end the calls and inclusions in progress are those of the beginning, and an exception
names these calls first. While a call does its work there are never too many in progress: the
evaluator to which that is a defect runs every source the same and without one. After a run
nothing is in progress, also if it failed. -/
theorem stacks_restored {settings : Settings} {session : Session}
    (h : session.Reachable settings) :
    (∀ m : Machine, session.machine.store.Leads m.store →
      m.calls.size ≤ settings.maxCallDepth → ∀ fuel env : Nat,
      let ev := Evaluator.ofFuel settings fuel
      let limit := settings.maxCallDepth
      (∀ e : Expr, e.check = .ok () → m.Restored limit (e.eval ev env m)) ∧
      (∀ c (s : Stmt), s.check c = .ok () → m.Restored limit (s.exec ev env m)) ∧
      (∀ c body, checkAll c body = .ok () → m.Restored limit (execAll ev env body m)) ∧
      (∀ callee arguments span, m.Restored limit (ev.callValue callee arguments span m)) ∧
      (∀ id name arguments span, m.Restored limit (ev.callHook id name arguments span m)) ∧
      (∀ quoted v span, m.Restored limit (ev.text quoted v span m)) ∧
      (∀ path span, m.Restored limit (includeFile ev env path span m))) ∧
    ∀ (fuel : Nat) (source : String),
      session.runWith (.guarded settings fuel) source =
          session.runWith (.ofFuel settings fuel) source ∧
        (session.runWith (.guarded settings fuel) source).1 ≠ .error (.halted .defect) ∧
        (session.runWith (.ofFuel settings fuel) source).2.machine.calls = #[] ∧
        (session.runWith (.ofFuel settings fuel) source).2.machine.includes = [] ∧
        ∀ e, (session.runWith (.ofFuel settings fuel) source).1 = .error (.halted (.exception e)) →
          e.Traces settings.maxCallDepth #[] := by
  refine ⟨fun m hlead hsize fuel env => ?_, fun fuel source => ?_⟩
  · have hm : m.store.Checked := hlead.checked h.checked
    have hev := Evaluator.ofFuel_traces settings fuel
    have henv : env ∈ Set.univ := Set.mem_univ env
    refine ⟨fun e he => ?_, fun c s hs => ?_, fun c body hbody => ?_,
      fun callee arguments span => ?_, fun id name arguments span => ?_, fun quoted v span => ?_,
      fun path span => ?_⟩
    · exact (Expr.eval_abides hev henv e he).restored hm hsize
    · exact (Stmt.exec_abides hev c henv s hs).restored hm hsize
    · exact (Syntax.execAll_abides hev c henv body hbody).restored hm hsize
    · have hbounds : (tracing settings.maxCallDepth).Bounds
          (Evaluator.ofFuel settings fuel).settings.maxCallDepth := by
        rw [Evaluator.settings_ofFuel]
        exact tracing_bounds _
      exact (Evaluator.callValue_abides hev hbounds (tracing_letsExit _) callee arguments
        span).restored hm hsize
    · exact (Evaluator.callHook_abides hev id name arguments span).restored hm hsize
    · exact (Evaluator.text_abides hev quoted v span).restored hm hsize
    · exact (Syntax.includeFile_abides hev henv path span).restored hm hsize
  · have hev := Evaluator.guarded_traces settings fuel
    have hidle := h.idle
    have hlater := (h.run fuel source).idle
    have halike := Evaluator.ofFuel_alike settings fuel
    have hdefect := (Session.runWith_agrees halike h.checked source).2.2
    have hsize : session.machine.calls.size ≤ settings.maxCallDepth := by
      rw [hidle.1]
      exact Nat.zero_le _
    rcases Session.runWith_abides hev (Set.mem_univ globals) h.checked hsize source with
      ⟨hrun, hne, -⟩ | ⟨halt, n, r, hrun, hrun', -, rfl, htraces⟩
    · exact ⟨hrun.symm, hrun ▸ hdefect, hlater.1, hlater.2, fun e he => absurd he (hne _)⟩
    · have hsame : session.runWith (.guarded settings fuel) source =
          session.runWith (.ofFuel settings fuel) source := hrun'.trans hrun.symm
      refine ⟨hsame, hsame ▸ hdefect, hlater.1, hlater.2, fun e he => ?_⟩
      rw [hrun] at he
      have hhalt : halt = .exception e := by
        injection he with he
        injection he
      exact hidle.1 ▸ htraces e hhalt

/-- A program that calls itself once too often, under a limit of three calls. -/
theorem stacks_restored_overflow :
    let settings : Settings := ⟨3, false, fun _ => .error "no such file", #[]⟩
    let later :=
      ((Session.start settings).runWith (.ofFuel settings 20) "fun f() \x7b f() \x7d f()").2
    (Session.start settings).Reachable settings ∧
      later.machine.calls = #[] ∧ later.machine.includes = [] := by
  intro settings later
  have hstart : (Session.start settings).Reachable settings := .start
  have hrun := (stacks_restored hstart).2 20 "fun f() \x7b f() \x7d f()"
  exact ⟨hstart, hrun.2.2.1, hrun.2.2.2.1⟩

end Rill
