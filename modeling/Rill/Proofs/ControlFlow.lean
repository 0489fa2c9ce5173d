import Rill.Proofs.Reachable

/-! Every `break`, `continue` and `return` finds the loop or the function that waits for it. -/
namespace Rill

open Syntax (Stmt checkAll execAll)
open Eval

/-- The evaluator for which a stray signal is a defect of the language. -/
def Evaluator.strict (settings : Settings) (fuel : Nat) : Evaluator :=
  ofFuelWith (fun
    | .normal => return ()
    | _ => defect) settings fuel

theorem Evaluator.strict_alike (settings : Settings) (fuel : Nat) :
    (strict settings fuel).Alike (ofFuel settings fuel) :=
  ofFuelWith_alike rfl rfl settings fuel

namespace Eval

/-- What agreement says of a computation that ended. -/
theorem AgreesWith.of_ok {α : Type} {Q : α → Prop} {x y : Eval α} (h : AgreesWith Q x y)
    {m n : Machine} (hm : m.store.Checked) {a : α} (hx : x m = .ok a n) : Q a := by
  obtain ⟨-, -, hq⟩ := (h m hm trivial).of_ok hx
  exact hq

end Eval

/-- In every state that a session can get into, statements that were checked outside of loops and
functions (those of a program or an included file, and the bodies of classes and modules) end
normally if they end without a failure, and the body of a function in the store never ends with a
`break` or `continue`. So no signal is ever passed over: under the strict evaluator, to which a
stray signal is a defect, every source runs the same and without one. -/
theorem no_signal_strays {settings : Settings} {session : Session}
    (h : session.Reachable settings) :
    (∀ m : Machine, session.machine.store.Leads m.store → ∀ fuel env : Nat,
      (∀ s : Stmt, s.check .bare = .ok () → ∀ signal n,
        s.exec (.ofFuel settings fuel) env m = .ok signal n → signal = .normal) ∧
      (∀ body : List Stmt, checkAll .bare body = .ok () → ∀ signal n,
        execAll (.ofFuel settings fuel) env body m = .ok signal n → signal = .normal) ∧
      (∀ f ∈ m.store.functions, ∀ signal n,
        execAll (.ofFuel settings fuel) env f.decl.body m = .ok signal n →
          signal = .normal ∨ ∃ v, signal = .returned v)) ∧
    ∀ (fuel : Nat) (source : String),
      session.runWith (.strict settings fuel) source =
          session.runWith (.ofFuel settings fuel) source ∧
        (session.runWith (.strict settings fuel) source).1 ≠ .error (.halted .defect) := by
  have hchecked := h.checked
  refine ⟨fun m hlead fuel env => ?_, fun fuel source => ?_⟩
  · have hm : m.store.Checked := hlead.checked hchecked
    have hev := Evaluator.ofFuel_alike settings fuel
    refine ⟨fun s hs signal n hrun => ?_, fun body hbody signal n hrun => ?_,
      fun f hf signal n hrun => ?_⟩
    · have hfits := (Stmt.exec_agrees hev .bare env s hs).of_ok hm hrun
      exact hfits.eq_normal
    · have hfits := (Syntax.execAll_agrees hev .bare env body hbody).of_ok hm hrun
      exact hfits.eq_normal
    · have hbody := Syntax.FunctionDecl.check_body (hm f hf)
      have hfits := (Syntax.execAll_agrees hev .function env _ hbody).of_ok hm hrun
      cases signal with
      | normal => exact .inl rfl
      | returned v => exact .inr ⟨v, rfl⟩
      | breakLoop | continueLoop => exact absurd rfl hfits
  · obtain ⟨heq, -, hdefect⟩ :=
      Session.runWith_agrees (Evaluator.strict_alike settings fuel) hchecked source
    exact ⟨heq, hdefect⟩

/-- A session that has made a function with a loop to break. -/
def Session.looping (settings : Settings) : Session :=
  ((start settings).runWith (.ofFuel settings 9)
    "fun f(n) \x7b while n > 0 \x7b if n == 3 \x7b break \x7d n -= 1 \x7d return n \x7d").2

theorem no_signal_strays_looping :
    let settings : Settings := ⟨100, false, fun _ => .error "no such file", #[]⟩
    (Session.looping settings).Reachable settings ∧
      (Session.looping settings).runWith (.strict settings 50) "class A \x7b x = f(5) \x7d A.x" =
        (Session.looping settings).runWith (.ofFuel settings 50) "class A \x7b x = f(5) \x7d A.x" := by
  have hreach (settings : Settings) : (Session.looping settings).Reachable settings :=
    .run _ _ .start
  exact ⟨hreach _, ((no_signal_strays (hreach _)).2 50 _).1⟩

end Rill
