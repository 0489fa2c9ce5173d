import Rill.Proofs.Persistence

/-! Evaluators that refuse some of what a program does.

As long as nothing is refused, a program runs under such an evaluator as it always does. So what a
program refrains from can be said by how it would end. -/
namespace Rill

open Text (Span)
open Eval

/-- What a program may not do. -/
structure Refusal where
  /-- Calls that may not be made. -/
  call : Store → Value → List Value → Bool
  /-- Attributes of values that code may not get or set. -/
  access : Value → String → (sets : Bool) → Bool

/-- Nothing is refused. -/
def Refusal.nothing : Refusal := ⟨fun _ _ _ => false, fun _ _ _ => false⟩

namespace Evaluator

/-- What a call does, unless it may not be made, which is a defect. -/
def dispatchUnless (r : Refusal) (ev : Evaluator) (callee : Value) (arguments : List Value)
    (span : Span) : Eval Value := fun m =>
  if r.call m.store callee arguments then defect m else ev.dispatch callee arguments span m

/-- It is a defect to use an attribute that may not be used. -/
def watchFor (r : Refusal) (object : Value) (name : String) (sets : Bool) : Eval Unit :=
  if r.access object name sets then defect else return ()

/-- The evaluator in which what is refused is a defect. -/
def refusing (r : Refusal) (settings : Settings) (fuel : Nat) : Evaluator :=
  ofDispatch (dispatchUnless r) (fun _ => return ()) (watchFor r) settings fuel

theorem refusing_nothing (settings : Settings) (fuel : Nat) :
    refusing .nothing settings fuel = ofFuel settings fuel := by
  unfold ofFuel
  rw [ofFuelWith_eq]
  rfl

end Evaluator

/-- A run ends early, and if it does so with an exception, then not with one of the language. -/
def EndsUncaused {α : Type} (r : EStateM.Result Halt Machine α) : Prop :=
  ∃ h n, r = .error h n ∧ ∀ e, h = .exception e → e.cause = none

/-- The regime in which both runs are the same unless the first ends in a defect. If that is fatal,
then the second run ends too. -/
def lapse (fatal : Prop) : Regime where
  Starts _ := True
  Halts _ h n r := r = .error h n ∨ h = .defect ∧ (fatal → EndsUncaused r)
  halts_after _ hh := hh
  halts_bind _ hh := by
    rcases hh with hr | ⟨hdefect, hends⟩
    · exact .inl (bind_of_error hr)
    · refine .inr ⟨hdefect, fun hfatal => ?_⟩
      obtain ⟨h, n, hr, he⟩ := hends hfatal
      exact ⟨h, n, bind_of_error hr, he⟩
  halts_outOfFuel _ := .inl rfl
  halts_raise _ _ := .inl rfl
  halts_raiseWith {_ m n h h' id span x y} _ _ hx hh hrun := by
    rcases hh with hy | ⟨rfl, hends⟩
    · -- the texts end in the same way
      left
      cases h with
      | exception e =>
        rw [raiseWith_of_exception hx] at hrun
        cases hrun
        exact raiseWith_of_exception hy id span
      | _ =>
        rw [raiseWith_of_halt hx nofun] at hrun
        cases hrun
        exact raiseWith_of_halt hy nofun id span
    · rw [raiseWith_of_halt hx nofun] at hrun
      cases hrun
      refine .inr ⟨rfl, fun hfatal => ?_⟩
      obtain ⟨k, o, hy, hk⟩ := hends hfatal
      cases k with
      | exception e =>
        refine ⟨_, _, raiseWith_of_exception hy id span, ?_⟩
        rintro _ ⟨⟩
        rfl
      | _ => exact ⟨_, _, raiseWith_of_halt hy nofun id span, nofun⟩
  halts_inCall _ hh := by
    rcases hh with hr | ⟨hdefect, hends⟩
    · exact .inl (inCall_of_error hr)
    · refine .inr ⟨hdefect, fun hfatal => ?_⟩
      obtain ⟨h, n, hr, he⟩ := hends hfatal
      exact ⟨h, _, inCall_of_error hr, he⟩
  halts_inInclude _ _ hh := by
    rcases hh with hr | ⟨hdefect, hends⟩
    · exact .inl (inInclude_of_error hr)
    · refine .inr ⟨hdefect, fun hfatal => ?_⟩
      obtain ⟨h, n, hr, he⟩ := hends hfatal
      exact ⟨h, _, inInclude_of_error hr, he⟩

variable {fatal : Prop}

theorem lapse_bounds (limit : Nat) : (lapse fatal).Bounds limit where
  starts _ _ _ := trivial
  overflow _ _ _ _ := .inl rfl

theorem lapse_letsExit : (lapse fatal).LetsExit := fun _ _ => .inl rfl

/-- What is refused would have ended the run. -/
structure Refusal.Fatal (r : Refusal) : Prop where
  call : ∀ (ev : Evaluator) {callee : Value} {arguments : List Value} (span : Span) {m : Machine},
    r.call m.store callee arguments = true → EndsUncaused (ev.dispatch callee arguments span m)
  access : ∀ object name sets, r.access object name sets = false

namespace Evaluator

/-- A run is the same under the evaluator that refuses some of it, unless that ends it. -/
theorem refusing_lapses {r : Refusal} (hfatal : fatal → r.Fatal) (settings : Settings)
    (fuel : Nat) :
    (lapse fatal).Governs Set.univ (refusing r settings fuel) (ofFuel settings fuel) := by
  have hwatch {homes : Set Nat} (object : Value) (name : String) (sets : Bool) :
      (lapse fatal).Abides homes (watchFor r object name sets) (unwatched object name sets) := by
    unfold watchFor
    by_cases h : r.access object name sets = true
    · rw [if_pos h]
      refine fun m _ _ => .ofError rfl (.refl m) (.inr ⟨rfl, fun hf => ?_⟩)
      rw [(hfatal hf).access] at h
      cases h
    · rw [if_neg h]
      exact .done _
  unfold ofFuel refusing
  rw [ofFuelWith_eq]
  refine ofDispatch_governs rfl rfl hwatch (fun _ => trivial) (lapse_bounds _) ?_ fuel
    fun _ => Set.mem_univ _
  intro homes ev ev' _ h callee arguments span m hm hs
  by_cases hcall : r.call m.store callee arguments = true
  · have hrefused : dispatchUnless r ev callee arguments span m = .error .defect m := if_pos hcall
    exact .ofError hrefused (.refl m) (.inr ⟨rfl, fun hf => (hfatal hf).call ev' span hcall⟩)
  · have hmade : dispatchUnless r ev callee arguments span m =
        ev.dispatch callee arguments span m :=
      if_neg hcall
    have hdispatch := dispatch_abides h callee arguments span (fun _ => lapse_letsExit) m hm hs
    exact hdispatch.after (.refl m) hmade rfl

end Evaluator

namespace Deed

/-- What is done without doing what is refused is done as always. -/
theorem run_refusing {r : Refusal} (hfatal : fatal → r.Fatal) {settings : Settings} {fuel : Nat}
    {deed : Deed} (hc : deed.Checked) {m : Machine} (hm : m.store.Checked) :
    deed.run (.ofFuel settings fuel) m = deed.run (.refusing r settings fuel) m ∨
      (∃ n, deed.run (.refusing r settings fuel) m = .error .defect n) ∧
        (fatal → EndsUncaused (deed.run (.ofFuel settings fuel) m)) := by
  have habides := run_abides (Evaluator.refusing_lapses hfatal settings fuel) hc m hm trivial
  cases hrun : deed.run (.refusing r settings fuel) m with
  | ok a n => exact .inl (habides.of_ok hrun).1
  | error h n =>
    rcases (habides.of_error hrun).2 with hsame | ⟨rfl, hends⟩
    · exact .inl hsame
    · exact .inr ⟨⟨n, rfl⟩, hends⟩

end Deed
end Rill
