import Rill.Proofs.Reachable

/-! The variables that a call makes are its own. -/
namespace Rill

open Text (Span)

/-- The machine that a computation leaves, however it ends. -/
def Eval.after {α : Type} (x : Eval α) (m : Machine) : Machine :=
  match x m with
  | .ok _ n | .error _ n => n

theorem Regime.AbidesAt.within {R : Regime} {homes : Set Nat} {α : Type} {m : Machine}
    {Q : α → Prop} {x y : Eval α} (h : R.AbidesAt homes m Q x y) : m.Within homes (x.after m) := by
  unfold Eval.after
  cases hx : x m with
  | ok a n => exact (h.of_ok hx).2.1
  | error halt n => exact (h.of_error hx).1

/-- The frames from before a call in which it may make variables. -/
def Settings.homes (settings : Settings) : Set Nat :=
  { id | settings.globalAssignment = true ∧ id = globals }

theorem Evaluator.callValue_confined (settings : Settings) (fuel : Nat) {m : Machine}
    (hm : m.store.Checked) (callee : Value) (arguments : List Value) (span : Span) :
    m.store.Confined settings.homes
      (((ofFuel settings fuel).callValue callee arguments span).after m).store := by
  have hev : agreement.Governs settings.homes (ofFuel settings fuel) (ofFuel settings fuel) :=
    ofFuelWith_governs rfl rfl (fun _ => trivial) (agreement_bounds _) agreement_letsExit fuel
      fun hset => ⟨hset, rfl⟩
  have hcall := callValue_abides hev (agreement_bounds _) agreement_letsExit callee arguments span
  exact (hcall m hm trivial).within.confined

/-- Whatever is called in a state that a session can get into, and however the call ends, each frame
from before it has the same parent after it and the same names for the same variables. Only if
assignments bind in the outermost frame may that one have more. -/
theorem call_keeps_frames {settings : Settings} {session : Session}
    (h : session.Reachable settings) {m : Machine} (hlead : session.machine.store.Leads m.store)
    (fuel : Nat) (callee : Value) (arguments : List Value) (span : Span) {id : Nat} {f : Frame}
    (hf : m.store.frames[id]? = some f) :
    let n := ((Evaluator.ofFuel settings fuel).callValue callee arguments span).after m
    ∃ g, n.store.frames[id]? = some g ∧ f.Grows g ∧
      (settings.globalAssignment = false ∨ id ≠ globals → g = f) := by
  have hm : m.store.Checked := hlead.checked h.checked
  have hconfined := Evaluator.callValue_confined settings fuel hm callee arguments span
  obtain ⟨g, hg, hgrows⟩ := hconfined.grows hf
  refine ⟨g, hg, hgrows, fun hcase => ?_⟩
  have hid : id ∉ settings.homes := by
    rintro ⟨hset, hid⟩
    rcases hcase with hunset | hne
    · rw [hset] at hunset
      cases hunset
    · exact hne hid
  have hsame := hconfined.getElem?_of_notMem hid hf
  exact Option.some.inj (hg.symm.trans hsame)

/-- A function assigns to a variable of the outermost frame, and makes one of its own. -/
theorem call_keeps_frames_naming :
    let settings : Settings := ⟨9, false, fun _ => .error "no such file", #[]⟩
    let session :=
      ((Session.start settings).runWith (.ofFuel settings 9) "x = 1 fun f() \x7b x = 2 y = 3 \x7d").2
    let n := ((Evaluator.ofFuel settings 9).callValue (.function 0) [] ⟨0, 0⟩).after session.machine
    session.Reachable settings ∧ (n.store.frame 1).names.keys = ["y"] ∧
      n.store.frames[globals]? = session.machine.store.frames[globals]? := by
  intro settings session n
  have hreach : session.Reachable settings := .run _ _ .start
  have hrun : session.machine.store.frames[globals]?.isSome = true ∧
      (n.store.frame 1).names.keys = ["y"] := by
    decide +kernel
  obtain ⟨f, hf⟩ := Option.isSome_iff_exists.mp hrun.1
  obtain ⟨g, hg, -, hsame⟩ := call_keeps_frames hreach .refl 9 (.function 0) [] ⟨0, 0⟩ hf
  refine ⟨hreach, hrun.2, ?_⟩
  rw [hf, hg, hsame (.inl rfl)]

end Rill
