import Rill.Proofs.Refusal
import Rill.Proofs.Veil.Statements

/-! Programs keep to a veil, as far as what it keeps from them is refused. -/
namespace Rill

open Text (Span)
open Eval Veil

variable {V : Veil} {s : Store}

/-- What is not refused keeps to a veil. -/
structure Refusal.Upholds (r : Refusal) (V : Veil) : Prop where
  call : ∀ {s : Store} {callee : Value} {arguments : List Value} {f : Native} {all : List Value},
    r.call s callee arguments = false → Evaluator.nativeCall? callee arguments = some (f, all) →
      f.arity.accepts all.length = true → V.Permits s f all
  access : ∀ {object : Value} {name : String} {sets : Bool},
    r.access object name sets = false → V.Lets object name sets

/-- If iterators are used as usual, nothing has to be refused. -/
theorem Refusal.nothing_upholds (hraises : V.raises) (hsealed : V.sealed = ∅)
    (hstill : V.still = ∅) :
    Refusal.nothing.Upholds V where
  call _ _ _ := by
    constructor
    · exact fun _ _ _ _ => hraises
    · simp [hstill]
  access _ := by simp [Veil.Lets, hsealed]

namespace Evaluator

theorem calling_runsAt {m : Machine} (hm : m.store.Sound V) {Q : Store → Value → Prop} (limit : Nat)
    (callee : Value) (span : Span) {body : Eval Value}
    (hb : ∀ frame, V.RunsAt { m with calls := m.calls.push frame } Q body) :
    V.RunsAt m Q (calling limit callee span body) := by
  by_cases hlimit : m.calls.size + 1 ≤ limit
  · exact (hb _).inCall.after (.refl m) (calling_of_le hlimit callee span body)
  · have hlimit : limit < m.calls.size + 1 := Nat.lt_of_not_le hlimit
    have hraise : V.Runs m.store Q (raise (.stackOverflow limit) span) := .raise _ span
    have hcall := (hraise.inCall ⟨calleeName m.store callee, span⟩).now hm
    exact hcall.after (.refl m) (calling_of_lt hlimit callee span body)

/-- An evaluator that upholds a veil is governed by it, if the host makes up no values. -/
theorem refusing_keeps {r : Refusal} (hr : r.Upholds V) {settings : Settings}
    (hhosts : ∀ f ∈ settings.hosts, f.Honest) (fuel : Nat) :
    V.Governs (refusing r settings fuel) := by
  have hwatch {s : Store} (object : Value) (name : String) (sets : Bool) :
      V.Runs s (fun _ _ => V.Lets object name sets) (watchFor r object name sets) := by
    unfold watchFor
    by_cases h : r.access object name sets = true
    · rw [if_pos h]
      exact .defect
    · rw [if_neg h]
      exact .pure fun _ _ => hr.access (Bool.eq_false_iff.mpr h)
  induction fuel with
  | zero => exact ⟨fun _ => rfl, hhosts, hwatch, fun _ _ _ => .outOfFuel, fun _ _ => .outOfFuel⟩
  | succ fuel ih =>
    have hblock {s : Store} (body : List Syntax.Stmt) (frame : Nat) :
        V.Runs s (Signal.Known V) (Syntax.execAll (refusing r settings fuel) frame body) :=
      Syntax.execAll_runs ih frame body
    refine ⟨fun _ => rfl, hhosts, hwatch, ?_, hblock⟩
    intro s callee arguments span hc ha m hsm hm
    refine calling_runsAt hm _ callee span fun frame => ?_
    by_cases hcall : r.call m.store callee arguments = true
    · exact .ofError (if_pos hcall) (.refl _) (.of_ne Halt.defect_ne)
    · have hdispatch := dispatch_runsAt ih (m := { m with calls := m.calls.push frame }) hm
        (hc.mono hsm) (fun v hv => (ha v hv).mono hsm)
        (fun f all => hr.call (Bool.eq_false_iff.mpr hcall)) span
      exact hdispatch.after (.refl _) (if_neg hcall)

/-- Nothing keeps a program from what it is not kept from. -/
theorem ofFuel_keeps (hraises : V.raises) (hsealed : V.sealed = ∅) (hstill : V.still = ∅)
    {settings : Settings} (hhosts : ∀ f ∈ settings.hosts, f.Honest) (fuel : Nat) :
    V.Governs (ofFuel settings fuel) := by
  rw [← refusing_nothing]
  exact refusing_keeps (Refusal.nothing_upholds hraises hsealed hstill) hhosts fuel

end Evaluator

theorem Session.runStatements_runs {ev : Evaluator} (h : V.Governs ev) {last : Value}
    (hl : last.Known V s) (program : List Syntax.Stmt) :
    V.Runs s (Value.Known V) (runStatements ev last program) := by
  induction program generalizing s last with
  | nil => exact .value hl
  | cons stmt rest ih =>
    have hsignal : V.Runs s (Value.Known V)
        (do ev.stray (← stmt.exec ev globals); runStatements ev last rest) := by
      refine .bind (stmt.exec_runs h globals) fun _ signal hst _ _ => ?_
      rw [h.stray]
      exact .bind (.done ()) fun _ _ htu _ _ => ih (hl.mono (hst.trans htu))
    cases stmt with
    | expr e => exact .bind (e.eval_runs h globals) fun _ _ _ _ hv => ih hv
    | _ => exact hsignal

namespace Deed

/-- It is done to what a program can have. -/
def Known (V : Veil) (s : Store) : Deed → Prop
  | call callee arguments _ => callee.Known V s ∧ ∀ v ∈ arguments, v.Known V s
  | _ => True

theorem run_runs {ev : Evaluator} (h : V.Governs ev) {deed : Deed} (hd : deed.Known V s) :
    V.Runs s Any (deed.run ev) := by
  cases deed with
  | eval e env => exact .bind (e.eval_runs h env) fun _ _ _ _ _ => .done _
  | exec stmt env => exact .bind (stmt.exec_runs h env) fun _ _ _ _ _ => .done _
  | call callee arguments span => exact .bind (h.call span hd.1 hd.2) fun _ _ _ _ _ => .done _

end Deed
end Rill
