import Rill.Proofs.Reachable

/-! A higher limit to calls makes no difference to a run that ends without an exception. -/
namespace Rill

open Text (Span)
open Eval

/-- The regime in which both runs are the same unless the first ends with an exception. -/
def leniency : Regime where
  Starts _ := True
  Halts _ h n r := (∀ e, h ≠ .exception e) → r = .error h n
  halts_after _ hh := hh
  halts_bind _ hh hne := bind_of_error (hh hne)
  halts_outOfFuel _ _ := rfl
  halts_raise _ _ hne := absurd rfl (hne _)
  halts_raiseWith {_ m n h h' id span x y} _ _ hx hh hrun hne := by
    cases h with
    | exception e =>
      -- the exception on the way to the text is dropped, but another one takes its place
      rw [raiseWith_of_exception hx] at hrun
      cases hrun
      exact absurd rfl (hne _)
    | _ =>
      rw [raiseWith_of_halt hx nofun] at hrun
      cases hrun
      exact raiseWith_of_halt (hh nofun) nofun id span
  halts_inCall _ hh hne := inCall_of_error (hh hne)
  halts_inInclude _ _ hh hne := inInclude_of_error (hh hne)

theorem leniency_letsExit : leniency.LetsExit := fun _ _ _ => rfl

namespace Evaluator

variable {homes : Set Nat}

/-- Under the higher limit a call goes on where it was refused under the lower one. -/
theorem calling_lenient {limit limit' : Nat} (hle : limit ≤ limit') (callee : Value) (span : Span)
    {x y : Eval Value} (h : leniency.Abides homes x y) :
    leniency.Abides homes (calling limit callee span x) (calling limit' callee span y) := by
  intro m hm _
  by_cases hlimit : m.calls.size + 1 ≤ limit
  · have hbody := h { m with calls := m.calls.push ⟨calleeName m.store callee, span⟩ } hm trivial
    have hlimit' : m.calls.size + 1 ≤ limit' := hlimit.trans hle
    exact hbody.inCall.after (.refl m) (calling_of_le hlimit _ span x)
      (calling_of_le hlimit' _ span y)
  · have hlimit : limit < m.calls.size + 1 := Nat.lt_of_not_le hlimit
    obtain ⟨s, e, hmade, -, -, hrun⟩ := calling_overflow hlimit callee span
    have hwithin : m.Within homes { m with store := s } :=
      .ofStore (hmade.mono (Set.empty_subset _))
    exact .ofError (hrun x) hwithin fun hne => absurd rfl (hne e)

theorem ofFuel_lenient {settings : Settings} {limit : Nat} (hle : settings.maxCallDepth ≤ limit)
    (fuel : Nat) (hglobal : settings.globalAssignment = true → globals ∈ homes) :
    leniency.Governs homes (ofFuel settings fuel)
      (ofFuel { settings with maxCallDepth := limit } fuel) := by
  unfold ofFuel
  rw [ofFuelWith_eq, ofFuelWith_eq]
  induction fuel generalizing homes with
  | zero =>
    exact ⟨⟨limit, rfl⟩, rfl, rfl, rfl, unwatched_abides, fun _ => trivial, hglobal,
      fun _ _ _ => .outOfFuel,
      fun _ _ _ _ _ => .outOfFuel⟩
  | succ fuel ih =>
    refine ⟨⟨limit, rfl⟩, rfl, rfl, rfl, unwatched_abides, fun _ => trivial, hglobal, ?_, ?_⟩
    · intro callee arguments span
      have hdispatch :=
        dispatch_abides (ih hglobal) callee arguments span fun _ => leniency_letsExit
      exact calling_lenient hle callee span hdispatch
    · intro homes' hsub body frame hframe hc
      have hinner := ih fun hset => hsub (hglobal hset)
      have hbody := Syntax.execAll_abides hinner .bare hframe body hc
      exact hbody.weaken fun _ hfits => hfits.eq_normal

end Evaluator

namespace Session

open Syntax (Program)

/-- A session starts with the same machine whatever its limit. -/
theorem start_limit (settings : Settings) (limit : Nat) :
    start { settings with maxCallDepth := limit } =
      { start settings with settings := { settings with maxCallDepth := limit } } := by
  have hsetup : setup { settings with maxCallDepth := limit } = setup settings := by
    unfold setup
    rfl
  unfold start
  rw [hsetup]

/-- The limit to calls is only a limit. If a checked program ends with a value or with a code, it
ends with the same value or code under every higher limit and leaves the same machine, so that it
has printed the same and the global variables are the same. A session starts with the same machine
whatever its limit. -/
theorem limit_only_limits {settings : Settings} {session : Session}
    (h : session.Reachable settings) {limit : Nat} (hle : settings.maxCallDepth ≤ limit)
    {program : Program} (hc : program.check = .ok ()) (fuel : Nat) :
    let deeper : Settings := { settings with maxCallDepth := limit }
    let ended := session.runProgram (.ofFuel settings fuel) program
    let ended' := ({ session with settings := deeper } : Session).runProgram (.ofFuel deeper fuel)
      program
    start deeper = { start settings with settings := deeper } ∧
    ((∃ v, ended.1 = .ok v) ∨ (∃ code, ended.1 = .error (.halted (.exit code))) →
      ended'.1 = ended.1 ∧ ended'.2.machine = ended.2.machine ∧ ended'.2.bindings = ended.2.bindings ∧
      ∀ v, ended'.2.machine.store.repr v = ended.2.machine.store.repr v) := by
  intro deeper ended ended'
  refine ⟨start_limit settings limit, fun hend => ?_⟩
  have hev := Evaluator.ofFuel_lenient hle fuel fun _ => Set.mem_univ globals
  have habides := runStatements_abides hev (Set.mem_univ globals) .null hc session.machine
    h.checked trivial
  have hended : ended = _ := runProgram_eq session _ program
  have hended' : ended' = _ := runProgram_eq { session with settings := deeper } _ program
  rw [hended] at hend
  rw [hended, hended']
  dsimp only
  cases hrun : runStatements (.ofFuel settings fuel) .null program session.machine with
  | ok v n =>
    rw [(habides.of_ok hrun).1]
    exact ⟨rfl, rfl, rfl, fun _ => rfl⟩
  | error halt n =>
    have hne : ∀ e, halt ≠ .exception e := by
      rintro e rfl
      rw [hrun] at hend
      rcases hend with ⟨v, hv⟩ | ⟨code, hcode⟩
      · cases hv
      · cases hcode
    rw [(habides.of_error hrun).2 hne]
    exact ⟨rfl, rfl, rfl, fun _ => rfl⟩

/-- A function that calls itself three times gives the same under the limits of four and nine. -/
theorem limit_only_limits_recursion :
    let settings : Settings := ⟨4, false, fun _ => .error "no such file", #[]⟩
    let deeper : Settings := { settings with maxCallDepth := 9 }
    let source := "fun f(n) \x7b if n == 0 \x7b return 7 \x7d return f(n - 1) \x7d f(3)"
    let session := Session.start settings
    ∃ program, Syntax.parse source = .ok program ∧ Program.check program = .ok () ∧
      (session.runProgram (.ofFuel settings 9) program).1 = .ok (.int 7) ∧
      (({ session with settings := deeper } : Session).runProgram (.ofFuel deeper 9) program).1 =
        .ok (.int 7) := by
  intro settings deeper source session
  have hparse : ∃ program, Syntax.parse source = .ok program ∧ Program.check program = .ok () ∧
      (session.runProgram (.ofFuel settings 9) program).1.toOption = some (.int 7) := by
    have hrun : (session.runWith (.ofFuel settings 9) source).1.toOption = some (.int 7) := by
      decide +kernel
    unfold runWith at hrun
    cases hp : Syntax.parse source with
    | error e => rw [hp] at hrun; cases hrun
    | ok program =>
      cases hc : Program.check program with
      | error e => simp only [hp, hc] at hrun; cases hrun
      | ok u =>
        simp only [hp, hc] at hrun
        exact ⟨program, rfl, hc, hrun⟩
  obtain ⟨program, hp, hc, hrun⟩ := hparse
  have hvalue : (session.runProgram (.ofFuel settings 9) program).1 = .ok (.int 7) := by
    cases hr : (session.runProgram (.ofFuel settings 9) program).1 with
    | error f => rw [hr] at hrun; cases hrun
    | ok v => rw [hr] at hrun; cases hrun; rfl
  have hreach : session.Reachable settings := .start
  have hle : settings.maxCallDepth ≤ 9 := by decide
  have hlimit := (limit_only_limits hreach hle hc 9).2 (.inl ⟨_, hvalue⟩)
  exact ⟨program, hp, hc, hvalue, hlimit.1.trans hvalue⟩

end Session
end Rill
