import Rill.Proofs.Regime.Statements
import Rill.Session

/-! Evaluators that go by a regime in what a call does go by it in every run. -/
namespace Rill

open Text (Span)
open Eval

/-- What a regime has to say of calls, if `limit` of them may be in progress. -/
structure Regime.Bounds (R : Regime) (limit : Nat) : Prop where
  starts : ∀ {calls : Array CallFrame} (frame : CallFrame), R.Starts calls →
    calls.size + 1 ≤ limit → R.Starts (calls.push frame)
  /-- One call too many is an exception in both runs. -/
  overflow : ∀ {m : Machine} {frame : CallFrame} {e : Exception}, R.Starts m.calls →
    limit < m.calls.size + 1 → e.traceback = m.calls.push frame →
    e.cause = some (.stackOverflow limit) →
    R.Halts (α := Value) m (.exception e) m (.error (.exception e) m)

variable {R : Regime} {homes : Set Nat}

namespace Evaluator

/-- Runs `body` as a call of a value, unless that is one call too many. -/
def calling (limit : Nat) (callee : Value) (span : Span) (body : Eval Value) : Eval Value := do
  inCall ⟨calleeName (← store) callee, span⟩ (do
    if limit < (← get).calls.size then raise (.stackOverflow limit) span else body)

theorem calling_of_lt {limit : Nat} {m : Machine} (h : limit < m.calls.size + 1) (callee : Value)
    (span : Span) (body : Eval Value) :
    calling limit callee span body m =
      inCall ⟨calleeName m.store callee, span⟩ (raise (.stackOverflow limit) span) m := by
  refine inCall_congr ?_
  have hlt : limit < (m.calls.push ⟨calleeName m.store callee, span⟩).size := by simpa using h
  exact congrFun (if_pos hlt) _

theorem calling_of_le {limit : Nat} {m : Machine} (h : m.calls.size + 1 ≤ limit) (callee : Value)
    (span : Span) (body : Eval Value) :
    calling limit callee span body m = inCall ⟨calleeName m.store callee, span⟩ body m := by
  refine inCall_congr ?_
  have hle : ¬limit < (m.calls.push ⟨calleeName m.store callee, span⟩).size := by simpa using h
  exact congrFun (if_neg hle) _

/-- One call too many is refused, whatever it was to do. The call is left again, and of what it did
only the new instance stays. -/
theorem calling_overflow {limit : Nat} {m : Machine} (h : limit < m.calls.size + 1) (callee : Value)
    (span : Span) :
    ∃ s e, m.store.Within ∅ s ∧
      e.traceback = m.calls.push ⟨calleeName m.store callee, span⟩ ∧
      e.cause = some (.stackOverflow limit) ∧
      ∀ body, calling limit callee span body m = .error (.exception e) { m with store := s } := by
  obtain ⟨s, e, hmade, htrace, hcause, hraise⟩ := exists_raise (α := Value) (.stackOverflow limit)
    span { m with calls := m.calls.push ⟨calleeName m.store callee, span⟩ }
  refine ⟨s, e, hmade, htrace, hcause, fun body => ?_⟩
  rw [calling_of_lt h, inCall_of_error hraise, Array.pop_push]

theorem calling_abides {limit : Nat} (hR : R.Bounds limit) (callee : Value) (span : Span)
    {x y : Eval Value} (h : R.Abides homes x y) :
    R.Abides homes (calling limit callee span x) (calling limit callee span y) := by
  intro m hm hs
  by_cases hlimit : m.calls.size + 1 ≤ limit
  · have hbody := h { m with calls := m.calls.push ⟨calleeName m.store callee, span⟩ } hm
      (hR.starts _ hs hlimit)
    exact hbody.inCall.after (.refl m) (calling_of_le hlimit _ span x)
      (calling_of_le hlimit _ span y)
  · have hlimit : limit < m.calls.size + 1 := Nat.lt_of_not_le hlimit
    obtain ⟨s, e, hmade, htrace, hcause, hrun⟩ := calling_overflow hlimit callee span
    have hwithin : m.Within homes { m with store := s } := .ofStore (hmade.mono (Set.empty_subset _))
    have hhalt := hR.overflow (m := { m with store := s }) hs hlimit htrace hcause
    refine .ofError (hrun x) hwithin ?_
    rw [hrun y]
    exact R.halts_after hwithin.leads hhalt

theorem callValue_abides {ev : Evaluator} (h : R.Governs homes ev ev)
    (hR : R.Bounds ev.settings.maxCallDepth) (hexit : R.LetsExit) (callee : Value)
    (arguments : List Value) (span : Span) :
    R.Abides homes (ev.callValue callee arguments span) (ev.callValue callee arguments span) := by
  have hdispatch := dispatch_abides h callee arguments span fun _ => hexit
  exact calling_abides hR callee span hdispatch

/-- The evaluator in which calls and included files nest at most `fuel` deep, with a choice of what a
call of a value does, of what becomes of stray signals and of what looks on. -/
def ofDispatch (dispatch : Evaluator → Value → List Value → Span → Eval Value)
    (stray : Signal → Eval Unit) (watch : Value → String → Bool → Eval Unit)
    (settings : Settings) : (fuel : Nat) → Evaluator
  | 0 =>
    { settings
      stray
      watch
      fuel := 0
      call := fun _ _ _ => outOfFuel
      block := fun _ _ => outOfFuel }
  | fuel + 1 =>
    { settings
      stray
      watch
      fuel
      call := fun callee arguments span => calling settings.maxCallDepth callee span
        (dispatch (ofDispatch dispatch stray watch settings fuel) callee arguments span)
      block := fun body frame =>
        Syntax.execAll (ofDispatch dispatch stray watch settings fuel) frame body }

theorem settings_ofDispatch
    (dispatch : Evaluator → Value → List Value → Span → Eval Value) (stray : Signal → Eval Unit)
    (watch : Value → String → Bool → Eval Unit) (settings : Settings) (fuel : Nat) :
    (ofDispatch dispatch stray watch settings fuel).settings = settings := by
  cases fuel <;> rfl

theorem settings_ofFuel (settings : Settings) (fuel : Nat) :
    (ofFuel settings fuel).settings = settings := by
  cases fuel <;> rfl

/-- A call does its work with less fuel, unless it is one call too many. -/
theorem call_ofFuel (settings : Settings) (fuel : Nat) (callee : Value) (arguments : List Value)
    (span : Span) :
    (ofFuel settings (fuel + 1)).call callee arguments span =
      calling settings.maxCallDepth callee span
        ((ofFuel settings fuel).dispatch callee arguments span) := by
  have hcall : (ofFuel settings (fuel + 1)).call callee arguments span =
      calling (ofFuel settings fuel).settings.maxCallDepth callee span
        ((ofFuel settings fuel).dispatch callee arguments span) := rfl
  rw [hcall, settings_ofFuel]

theorem unwatched_abides (object : Value) (name : String) (sets : Bool) :
    R.Abides homes (unwatched object name sets) (unwatched object name sets) := .done _

/-- In the usual evaluators, a call of a value does what it means. -/
theorem ofFuelWith_eq (stray : Signal → Eval Unit) (settings : Settings) (fuel : Nat) :
    ofFuelWith stray settings fuel = ofDispatch dispatch stray unwatched settings fuel := by
  induction fuel with
  | zero => rfl
  | succ fuel ih =>
    have hcall : (ofDispatch dispatch stray unwatched settings fuel).callValue =
        fun callee arguments span => calling settings.maxCallDepth callee span
          ((ofDispatch dispatch stray unwatched settings fuel).dispatch callee arguments span) := by
      have hlimit := congrArg Settings.maxCallDepth
        (settings_ofDispatch dispatch stray unwatched settings fuel)
      rw [← hlimit]
      rfl
    unfold ofFuelWith ofDispatch
    rw [ih, ← hcall]

/-- Evaluators go by a regime if what a call does goes by it for evaluators that do. -/
theorem ofDispatch_governs
    {dispatch dispatch' : Evaluator → Value → List Value → Span → Eval Value}
    {stray stray' : Signal → Eval Unit} (hs : stray .normal = pure ())
    (hs' : stray' .normal = pure ()) {watch watch' : Value → String → Bool → Eval Unit}
    (hw : ∀ {homes : Set Nat} object name sets,
      R.Abides homes (watch object name sets) (watch' object name sets))
    {settings : Settings}
    (ho : ∀ {path program}, Syntax.included settings path = .ok program → R.Opens path)
    (hR : R.Bounds settings.maxCallDepth)
    (hd : ∀ {homes : Set Nat} {ev ev' : Evaluator}, ev.settings = settings →
      R.Governs homes ev ev' → ∀ callee arguments span,
        R.Abides homes (dispatch ev callee arguments span) (dispatch' ev' callee arguments span))
    (fuel : Nat) (hglobal : settings.globalAssignment = true → globals ∈ homes) :
    R.Governs homes (ofDispatch dispatch stray watch settings fuel)
      (ofDispatch dispatch' stray' watch' settings fuel) := by
  induction fuel generalizing homes with
  | zero =>
    exact ⟨⟨_, rfl⟩, rfl, hs, hs', hw, ho, hglobal, fun _ _ _ => .outOfFuel,
      fun _ _ _ _ _ => .outOfFuel⟩
  | succ fuel ih =>
    refine ⟨⟨_, rfl⟩, rfl, hs, hs', hw, ho, hglobal, fun callee arguments span => ?_,
      fun hsub body frame hframe hc => ?_⟩
    · have hsettings := settings_ofDispatch dispatch stray watch settings fuel
      exact calling_abides hR callee span (hd hsettings (ih hglobal) callee arguments span)
    · have hinner := ih fun hset => hsub (hglobal hset)
      have hbody := Syntax.execAll_abides hinner .bare hframe body hc
      exact hbody.weaken fun _ hfits => hfits.eq_normal

/-- The usual evaluators go by every regime that lets calls and `exit` be. -/
theorem ofFuelWith_governs {stray stray' : Signal → Eval Unit} (hs : stray .normal = pure ())
    (hs' : stray' .normal = pure ()) {settings : Settings}
    (ho : ∀ {path program}, Syntax.included settings path = .ok program → R.Opens path)
    (hR : R.Bounds settings.maxCallDepth) (hexit : R.LetsExit) (fuel : Nat)
    (hglobal : settings.globalAssignment = true → globals ∈ homes) :
    R.Governs homes (ofFuelWith stray settings fuel) (ofFuelWith stray' settings fuel) := by
  rw [ofFuelWith_eq, ofFuelWith_eq]
  exact ofDispatch_governs hs hs' unwatched_abides ho hR (fun _ h callee arguments span =>
    dispatch_abides h callee arguments span fun _ => hexit) fuel hglobal

end Evaluator

namespace Session

open Syntax (Stmt Program checkAll)

theorem runStatements_abides {ev ev' : Evaluator} (h : R.Governs homes ev ev')
    (hglobals : globals ∈ homes) (last : Value) {program : List Stmt}
    (hc : checkAll .bare program = .ok ()) :
    R.Abides homes (runStatements ev last program) (runStatements ev' last program) := by
  induction program generalizing last with
  | nil => exact .done _
  | cons s ss ih =>
    obtain ⟨hs, hss⟩ := Syntax.seq_eq_ok.mp hc
    -- every statement but an expression may end with a signal
    have hsignal : R.Abides homes
        (do ev.stray (← s.exec ev globals); runStatements ev last ss)
        (do ev'.stray (← s.exec ev' globals); runStatements ev' last ss) := by
      refine .bind (Syntax.Stmt.exec_abides h .bare hglobals s hs) fun signal hfits => ?_
      rw [hfits.eq_normal, h.stray, h.stray']
      exact .bind (.done ()) fun _ _ => ih last hss
    cases s with
    | expr e => exact .bind (Syntax.Expr.eval_abides h hglobals e hs) fun v _ => ih v hss
    | _ => exact hsignal

/-- A source is refused, whoever is to run it, or a checked program is run. -/
theorem runWith_cases (session : Session) (source : String) :
    (∃ failure, (∀ halt, failure ≠ .halted halt) ∧
      ∀ ev, session.runWith ev source = (.error failure, session)) ∨
    ∃ program, checkAll .bare program = .ok () ∧
      ∀ ev, session.runWith ev source = session.runProgram ev program := by
  unfold runWith
  cases hp : Syntax.parse source with
  | error e => exact .inl ⟨.syntaxError e, nofun, fun _ => rfl⟩
  | ok program =>
    dsimp only
    cases hc : Program.check program with
    | error e => exact .inl ⟨.misplaced e, nofun, fun _ => rfl⟩
    | ok u => exact .inr ⟨program, hc, fun _ => rfl⟩

/-- What a run is for a session, given how the statements of the program ended. -/
def ended (session : Session) : EStateM.Result Halt Machine Value → Except Failure Value × Session
  | .ok v machine => (.ok v, { session with machine })
  | .error h machine => (.error (.halted h), { session with machine })

theorem runProgram_eq (session : Session) (ev : Evaluator) (program : Program) :
    session.runProgram ev program =
      session.ended (runStatements ev .null program session.machine) := by
  unfold runProgram
  cases runStatements ev .null program session.machine <;> rfl

/-- Runs of one checked program under evaluators that go by a regime are the same, unless the first
halts, and then the second ends as it may. -/
theorem runProgram_abides {ev ev' : Evaluator} (h : R.Governs homes ev ev')
    (hglobals : globals ∈ homes) {session : Session} (hm : session.machine.store.Checked)
    (hs : R.Starts session.machine.calls) {program : Program}
    (hc : checkAll .bare program = .ok ()) :
    (session.runProgram ev program = session.runProgram ev' program ∧
      (∀ halt, (session.runProgram ev program).1 ≠ .error (.halted halt)) ∧
      session.machine.Within homes (session.runProgram ev program).2.machine) ∨
    ∃ halt n r,
      session.runProgram ev program = (.error (.halted halt), { session with machine := n }) ∧
      session.runProgram ev' program = session.ended r ∧ session.machine.Within homes n ∧
      R.Halts session.machine halt n r := by
  have habides := runStatements_abides h hglobals .null hc session.machine hm hs
  rw [runProgram_eq, runProgram_eq]
  cases hr : runStatements ev .null program session.machine with
  | ok v n =>
    obtain ⟨hr', hwithin, -⟩ := habides.of_ok hr
    rw [hr']
    exact .inl ⟨rfl, nofun, hwithin⟩
  | error halt n =>
    obtain ⟨hwithin, hh⟩ := habides.of_error hr
    exact .inr ⟨halt, n, _, rfl, rfl, hwithin, hh⟩

/-- So are runs of one source. -/
theorem runWith_abides {ev ev' : Evaluator} (h : R.Governs homes ev ev')
    (hglobals : globals ∈ homes) {session : Session} (hm : session.machine.store.Checked)
    (hs : R.Starts session.machine.calls) (source : String) :
    (session.runWith ev source = session.runWith ev' source ∧
      (∀ halt, (session.runWith ev source).1 ≠ .error (.halted halt)) ∧
      session.machine.Within homes (session.runWith ev source).2.machine) ∨
    ∃ halt n r, session.runWith ev source = (.error (.halted halt), { session with machine := n }) ∧
      session.runWith ev' source = session.ended r ∧ session.machine.Within homes n ∧
      R.Halts session.machine halt n r := by
  rcases runWith_cases session source with ⟨failure, hne, hrun⟩ | ⟨program, hc, hrun⟩
  · rw [hrun, hrun]
    refine .inl ⟨rfl, fun halt hhalt => hne halt ?_, .refl _⟩
    injection hhalt
  · rw [hrun, hrun]
    exact runProgram_abides h hglobals hm hs hc

end Session
end Rill
