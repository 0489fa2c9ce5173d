import Rill.Proofs.Regime.Runs

/-! Evaluators under which programs run the same. The language never goes wrong in such runs. -/
namespace Rill

open Eval

/-- The regime in which both runs are the same and do not end in a defect. -/
def agreement : Regime :=
  .same (fun _ => True) (fun _ h => h ≠ .defect) (fun _ => nofun) (fun _ _ => nofun) fun _ _ _ h => h

theorem agreement_bounds (limit : Nat) : agreement.Bounds limit where
  starts _ _ _ := trivial
  overflow _ _ _ _ := ⟨rfl, nofun⟩

theorem agreement_letsExit : agreement.LetsExit := fun _ _ => ⟨rfl, nofun⟩

namespace Eval

/-- From every machine with checked functions, two computations do the same. What they do are steps,
they do not end in a defect, and their result is as said. -/
abbrev AgreesWith {α : Type} (Q : α → Prop) (x y : Eval α) : Prop :=
  agreement.AbidesWith Set.univ Q x y

end Eval

/-- Two evaluators under which programs run the same. -/
abbrev Evaluator.Alike (ev ev' : Evaluator) : Prop := agreement.Governs Set.univ ev ev'

namespace Syntax

variable {ev ev' : Evaluator} (h : ev.Alike ev') (c : Surroundings) (env : Nat)

include h

theorem Stmt.exec_agrees (s : Stmt) (hc : s.check c = .ok ()) :
    AgreesWith (Signal.Fits c) (s.exec ev env) (s.exec ev' env) :=
  Stmt.exec_abides h c (Set.mem_univ env) s hc

theorem execAll_agrees (body : List Stmt) (hc : checkAll c body = .ok ()) :
    AgreesWith (Signal.Fits c) (execAll ev env body) (execAll ev' env body) :=
  execAll_abides h c (Set.mem_univ env) body hc

end Syntax

namespace Evaluator

/-- Whatever is made of stray signals, programs run the same: there are none. -/
theorem ofFuelWith_alike {stray stray' : Signal → Eval Unit} (hs : stray .normal = pure ())
    (hs' : stray' .normal = pure ()) (settings : Settings) (fuel : Nat) :
    (ofFuelWith stray settings fuel).Alike (ofFuelWith stray' settings fuel) :=
  ofFuelWith_governs hs hs' (fun _ => trivial) (agreement_bounds _) agreement_letsExit fuel
    fun _ => Set.mem_univ _

theorem ofFuel_alike (settings : Settings) (fuel : Nat) :
    (ofFuel settings fuel).Alike (ofFuel settings fuel) :=
  ofFuelWith_alike rfl rfl settings fuel

end Evaluator
end Rill
