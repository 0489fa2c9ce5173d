import Rill.Proofs.Nodes
import Rill.Proofs.Reachable

/-! The language itself never goes wrong. -/
namespace Rill

/-- Under any settings and after any session, no source makes the language look for something that
is not there: an argument beyond those given, an element or character out of bounds, or the node of
an expression by a number that is not in its table. Expressions are evaluated as trees, which is
the same as following the numbers in their tables. -/
theorem run_ne_defect {settings : Settings} {session : Session} (h : session.Reachable settings)
    (fuel : Nat) (source : String) :
    (session.runWith (.ofFuel settings fuel) source).1 ≠ .error (.halted .defect) ∧
      ∀ (ev : Evaluator) (env : Nat) (e : Syntax.Expr), e.arena.eval ev env = e.eval ev env := by
  have hev := Evaluator.ofFuel_alike settings fuel
  exact ⟨(Session.runWith_agrees hev h.checked source).2.2, fun ev env e => e.eval_arena ev env⟩

theorem run_ne_defect_range :
    let settings : Settings := ⟨100, false, fun _ => .error "no such file", #[]⟩
    (Session.start settings).Reachable settings ∧
      ((Session.start settings).runWith (.ofFuel settings 50)
        "for i in range(1, 3) \x7b [4, 5].insert(i) \x7d").1 ≠ .error (.halted .defect) :=
  ⟨.start, (run_ne_defect .start 50 _).1⟩

end Rill
