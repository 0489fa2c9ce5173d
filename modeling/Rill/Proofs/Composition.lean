import Rill.Proofs.Reachable

/-! Programs that are run one after another are one program. -/
namespace Rill

open Syntax (Expr Stmt Program checkAll)
open Eval

section

variable (ev : Evaluator)

theorem runStatements_cons_of_ne {s : Stmt} (h : ∀ e, s ≠ .expr e) (last : Value) (ss : Program) :
    runStatements ev last (s :: ss) =
      (do ev.stray (← s.exec ev globals); runStatements ev last ss) := by
  cases s with
  | expr e => exact absurd rfl (h e)
  | _ => rfl

/-- The second part of a program goes on with the value of the first. -/
theorem runStatements_append (last : Value) (p q : Program) :
    runStatements ev last (p ++ q) =
      (do let v ← runStatements ev last p; runStatements ev v q) := by
  induction p generalizing last with
  | nil => rfl
  | cons s ss ih =>
    rw [List.cons_append]
    by_cases h : ∃ e, s = .expr e
    · obtain ⟨e, rfl⟩ := h
      rw [runStatements, runStatements, bind_assoc]
      exact bind_congr fun v => ih v
    · have hne : ∀ e, s ≠ .expr e := not_exists.mp h
      rw [runStatements_cons_of_ne ev hne, runStatements_cons_of_ne ev hne, ih, bind_assoc]
      exact bind_congr fun _ => (bind_assoc _ _ _).symm

/-- The value from before does not matter to a program with an expression. -/
theorem runStatements_of_mem {e : Expr} {q : Program} (h : .expr e ∈ q) (last last' : Value) :
    runStatements ev last q = runStatements ev last' q := by
  induction q with
  | nil => cases h
  | cons s ss ih =>
    by_cases hs : ∃ e, s = .expr e
    · obtain ⟨e, rfl⟩ := hs
      rfl
    · have hne : ∀ e, s ≠ .expr e := not_exists.mp hs
      have hmem : .expr e ∈ ss := List.mem_of_ne_of_mem (hne e).symm h
      rw [runStatements_cons_of_ne ev hne, runStatements_cons_of_ne ev hne, ih hmem]

/-- It is the value of a program without one. -/
theorem runStatements_of_notMem {q : Program} (h : ∀ e, .expr e ∉ q) (last last' : Value) :
    runStatements ev last q = (do let _ ← runStatements ev last' q; return last) := by
  induction q with
  | nil => rfl
  | cons s ss ih =>
    have hne : ∀ e, s ≠ .expr e := fun e he => h e (he ▸ List.mem_cons_self)
    have hss : ∀ e, .expr e ∉ ss := fun e he => h e (List.mem_cons_of_mem s he)
    rw [runStatements_cons_of_ne ev hne, runStatements_cons_of_ne ev hne, ih hss, bind_assoc]
    exact bind_congr fun _ => (bind_assoc _ _ _).symm

end

theorem Syntax.Program.check_append {p q : Program} (hp : p.check = .ok ()) (hq : q.check = .ok ()) :
    Program.check (p ++ q) = .ok () := by
  induction p with
  | nil => exact hq
  | cons s ss ih =>
    obtain ⟨hs, hss⟩ := Syntax.seq_eq_ok.mp hp
    exact Syntax.seq_eq_ok.mpr ⟨hs, ih hss⟩

namespace Session

/-- Two runs end alike if they leave the same session, and fail in the same way or not at all. -/
def EndsAlike (r r' : Except Failure Value × Session) : Prop :=
  r.2 = r'.2 ∧ ∀ failure, r.1 = .error failure ↔ r'.1 = .error failure

namespace EndsAlike

variable {r r' r'' : Except Failure Value × Session}

theorem refl (r : Except Failure Value × Session) : EndsAlike r r := ⟨rfl, fun _ => .rfl⟩

theorem trans (h : EndsAlike r r') (h' : EndsAlike r' r'') : EndsAlike r r'' :=
  ⟨h.1.trans h'.1, fun failure => (h.2 failure).trans (h'.2 failure)⟩

/-- Runs that fail alike are the same. -/
theorem eq_of_error (h : EndsAlike r r') {failure : Failure} (hr : r.1 = .error failure) :
    r' = r :=
  Prod.ext (((h.2 failure).mp hr).trans hr.symm) h.1.symm

end EndsAlike

/-- Goes on after a run that did not fail. -/
def andThen (r : Except Failure Value × Session)
    (next : Value → Session → Except Failure Value × Session) : Except Failure Value × Session :=
  match r with
  | (.ok v, later) => next v later
  | failed => failed

/-- Runs programs one after another, up to the first that fails. The value is that of the last. -/
def runEach (session : Session) (ev : Evaluator) (last : Value) :
    List Program → Except Failure Value × Session
  | [] => (.ok last, session)
  | p :: ps => andThen (session.runProgram ev p) fun v later => later.runEach ev v ps

/-- Runs the statements of a program one by one, as programs of their own. -/
def runSingly (session : Session) (ev : Evaluator) (p : Program) :
    Except Failure Value × Session :=
  session.runEach ev .null (p.map ([·]))

theorem andThen_of_ok {r : Except Failure Value × Session} {v : Value} (h : r.1 = .ok v)
    (next : Value → Session → Except Failure Value × Session) : andThen r next = next v r.2 := by
  obtain ⟨outcome, later⟩ := r
  cases h
  rfl

theorem andThen_of_error {r : Except Failure Value × Session} {failure : Failure}
    (h : r.1 = .error failure) (next : Value → Session → Except Failure Value × Session) :
    andThen r next = r := by
  obtain ⟨outcome, later⟩ := r
  cases h
  rfl

variable {session : Session} {ev : Evaluator} {p : Program}

/-- What the state of a run was before it does not matter to what is made of its end. -/
theorem ended_set (session : Session) (n : Machine) (r : EStateM.Result Halt Machine Value) :
    { session with machine := n }.ended r = session.ended r := by
  cases r <;> rfl

/-- A run changes nothing in a session but its machine. -/
theorem runProgram_set (session : Session) (ev : Evaluator) (p : Program) :
    (session.runProgram ev p).2 =
      { session with machine := (session.runProgram ev p).2.machine } := by
  rw [runProgram_eq]
  cases runStatements ev .null p session.machine <;> rfl

/-- A program that succeeds is followed by the rest, which goes on with its value. -/
theorem runProgram_append_of_ok {v : Value} (h : (session.runProgram ev p).1 = .ok v)
    (q : Program) :
    session.runProgram ev (p ++ q) = (session.runProgram ev p).2.ended
      (runStatements ev v q (session.runProgram ev p).2.machine) := by
  rw [runProgram_eq] at h
  rw [runProgram_eq, runProgram_eq, runStatements_append]
  cases hr : runStatements ev .null p session.machine with
  | ok w n =>
    rw [hr] at h
    cases h
    rw [bind_of_ok hr]
    exact (ended_set session n _).symm
  | error halt n =>
    rw [hr] at h
    cases h

/-- After one that fails the rest is not run. -/
theorem runProgram_append_of_error {failure : Failure}
    (h : (session.runProgram ev p).1 = .error failure) (q : Program) :
    session.runProgram ev (p ++ q) = session.runProgram ev p := by
  rw [runProgram_eq] at h
  rw [runProgram_eq, runProgram_eq, runStatements_append]
  cases hr : runStatements ev .null p session.machine with
  | ok v n =>
    rw [hr] at h
    cases h
  | error halt n => rw [bind_of_error hr]

/-- If statements begin with another value, they may end with another value and no more. -/
theorem endsAlike_ended (session : Session) (ev : Evaluator) (last last' : Value) (q : Program)
    (m : Machine) :
    EndsAlike (session.ended (runStatements ev last q m))
      (session.ended (runStatements ev last' q m)) := by
  by_cases hq : ∃ e, .expr e ∈ q
  · obtain ⟨e, he⟩ := hq
    rw [runStatements_of_mem ev he last last']
    exact .refl _
  · have hnone : ∀ e, .expr e ∉ q := not_exists.mp hq
    rw [runStatements_of_notMem ev hnone last last']
    cases hr : runStatements ev last' q m with
    | ok v n =>
      rw [bind_of_ok hr]
      exact ⟨rfl, fun _ => ⟨nofun, nofun⟩⟩
    | error halt n =>
      rw [bind_of_error hr]
      exact .refl _

/-- Two programs in one are run like the one after the other. -/
theorem endsAlike_append (session : Session) (ev : Evaluator) (p q : Program) :
    EndsAlike (session.runProgram ev (p ++ q))
      (andThen (session.runProgram ev p) fun _ later => later.runProgram ev q) := by
  cases hp : (session.runProgram ev p).1 with
  | ok v =>
    rw [runProgram_append_of_ok hp, andThen_of_ok hp, runProgram_eq]
    exact endsAlike_ended _ ev v .null q _
  | error failure =>
    rw [runProgram_append_of_error hp, andThen_of_error hp]
    exact .refl _

/-- So are any number of programs. -/
theorem endsAlike_flatten (session : Session) (ev : Evaluator) (last : Value)
    (ps : List Program) :
    EndsAlike (session.runProgram ev ps.flatten) (session.runEach ev last ps) := by
  induction ps generalizing session last with
  | nil => exact ⟨rfl, fun _ => ⟨nofun, nofun⟩⟩
  | cons p ps ih =>
    rw [List.flatten_cons]
    refine (endsAlike_append session ev p ps.flatten).trans ?_
    rw [runEach]
    cases hp : (session.runProgram ev p).1 with
    | ok v =>
      rw [andThen_of_ok hp, andThen_of_ok hp]
      exact ih _ v
    | error failure =>
      rw [andThen_of_error hp, andThen_of_error hp]
      exact .refl _

theorem endsAlike_runSingly (session : Session) (ev : Evaluator) (p : Program) :
    EndsAlike (session.runProgram ev p) (session.runSingly ev p) := by
  have hflat : (p.map ([·])).flatten = p := by
    rw [← List.flatMap_def, List.flatMap_singleton']
  have halike := endsAlike_flatten session ev .null (p.map ([·]))
  rwa [hflat] at halike

theorem runEach_append (session : Session) (ev : Evaluator) (last : Value)
    (ps qs : List Program) :
    session.runEach ev last (ps ++ qs) =
      andThen (session.runEach ev last ps) fun v later => later.runEach ev v qs := by
  induction ps generalizing session last with
  | nil => rfl
  | cons p ps ih =>
    rw [List.cons_append, runEach, runEach]
    cases hp : (session.runProgram ev p).1 with
    | ok v =>
      rw [andThen_of_ok hp, andThen_of_ok hp]
      exact ih _ v
    | error failure =>
      rw [andThen_of_error hp, andThen_of_error hp, andThen_of_error hp]

theorem runSingly_concat (session : Session) (ev : Evaluator) (p : Program) (s : Stmt) :
    session.runSingly ev (p ++ [s]) =
      andThen (session.runSingly ev p) fun _ later => later.runProgram ev [s] := by
  have hlast (v : Value) (later : Session) :
      later.runEach ev v [[s]] = later.runProgram ev [s] := by
    rw [runEach]
    cases hs : (later.runProgram ev [s]).1 with
    | ok w =>
      rw [andThen_of_ok hs]
      exact Prod.ext hs.symm rfl
    | error failure => exact andThen_of_error hs _
  rw [runSingly, List.map_append, runEach_append]
  exact congrArg _ (funext fun v => funext (hlast v))

/-- Among programs that are run one after another, one is the first that fails. -/
theorem exists_first_failing {last : Value} {ps : List Program} {failure : Failure}
    (h : (session.runEach ev last ps).1 = .error failure) :
    ∃ before p after v, ps = before ++ p :: after ∧
      (session.runEach ev last before).1 = .ok v ∧
      (session.runEach ev last before).2.runProgram ev p = session.runEach ev last ps := by
  induction ps generalizing session last with
  | nil => cases h
  | cons p ps ih =>
    rw [runEach] at h ⊢
    cases hp : (session.runProgram ev p).1 with
    | ok v =>
      rw [andThen_of_ok hp] at h ⊢
      obtain ⟨before, p', after, w, rfl, hbefore, hrun⟩ := ih h
      refine ⟨p :: before, p', after, w, rfl, ?_, ?_⟩
      · rw [runEach, andThen_of_ok hp]
        exact hbefore
      · rw [runEach, andThen_of_ok hp]
        exact hrun
    | error failure' =>
      rw [andThen_of_error hp]
      exact ⟨[], p, ps, last, rfl, rfl, rfl⟩

/-- A program that fails does so in one of its statements, and leaves what the statements up to that
one leave if they are run one by one. -/
theorem exists_failing_statement {failure : Failure}
    (h : (session.runProgram ev p).1 = .error failure) :
    ∃ before s after v, p = before ++ s :: after ∧
      (session.runSingly ev before).1 = .ok v ∧
      (session.runSingly ev before).2.runProgram ev [s] = session.runProgram ev p ∧
      session.runSingly ev (before ++ [s]) = session.runProgram ev p := by
  have hsame : session.runSingly ev p = session.runProgram ev p :=
    (endsAlike_runSingly session ev p).eq_of_error h
  obtain ⟨before, q, after, v, hsplit, hbefore, hrun⟩ :=
    exists_first_failing (hsame ▸ h : (session.runSingly ev p).1 = .error failure)
  obtain ⟨first, rest, rfl, rfl, hrest⟩ := List.map_eq_append_iff.mp hsplit
  obtain ⟨s, after, rfl, rfl, rfl⟩ := List.map_eq_cons_iff.mp hrest
  have hbefore : (session.runSingly ev first).1 = .ok v := hbefore
  refine ⟨first, s, after, v, rfl, hbefore, hrun.trans hsame, ?_⟩
  rw [runSingly_concat, andThen_of_ok hbefore]
  exact hrun.trans hsame

/-- A run leaves nothing but what it stored and printed, and the next one may follow. -/
theorem Between.runProgram {settings : Settings} (h : session.Between settings) (fuel : Nat)
    (hp : p.check = .ok ()) :
    let ended := session.runProgram (.ofFuel settings fuel) p
    ended.1 ≠ .error (.halted .defect) ∧
    ended.2 = { session with
      machine := ⟨ended.2.machine.store, ended.2.machine.output, #[], []⟩ } ∧
    ended.2.Between settings := by
  intro ended
  have hev := Evaluator.ofFuel_alike settings fuel
  have hbetween : ended.2.Between settings := h.run fuel hp
  obtain ⟨hcalls, hincludes⟩ := hbetween.idle
  have hmachine : ended.2.machine =
      ⟨ended.2.machine.store, ended.2.machine.output, #[], []⟩ := by
    rw [← hcalls, ← hincludes]
  refine ⟨(runProgram_agrees hev h.checked hp).2.2, ?_, hbetween⟩
  rw [← hmachine]
  exact runProgram_set session _ p

end Session

/-- Runs compose. In a session between two runs, a program `p` and then, if it succeeds, a program
`q` leave the same session as the one program made of both, and fail in the same way or not at all.
The values are the same too if `q` has an expression among its statements; if it has none, the value
of both is that of `p`. If `p` fails then it does so in one of its statements, `s`, and the run is
the same as that of the statements up to `s` one by one, each as a program of its own, of which only
the last fails. However a program ends, it leaves nothing but what it stored and printed: no call and
no inclusion is in progress then, and the session is again between two runs, so that all this is true
of what is run next. -/
theorem runs_compose {settings : Settings} {session : Session} (h : session.Between settings)
    (fuel : Nat) {p q : Program} (hp : p.check = .ok ()) (hq : q.check = .ok ()) :
    let ev := Evaluator.ofFuel settings fuel
    let first := session.runProgram ev p
    let whole := session.runProgram ev (p ++ q)
    Program.check (p ++ q) = .ok () ∧
    (∀ v, first.1 = .ok v →
      Session.EndsAlike whole (first.2.runProgram ev q) ∧
      ((∃ e, .expr e ∈ q) → whole = first.2.runProgram ev q) ∧
      ((∀ e, .expr e ∉ q) → ∀ w, whole.1 = .ok w → w = v)) ∧
    (∀ failure, first.1 = .error failure →
      whole = first ∧
      ∃ before s after v, p = before ++ s :: after ∧
        (session.runSingly ev before).1 = .ok v ∧
        (session.runSingly ev before).2.runProgram ev [s] = first ∧
        session.runSingly ev (before ++ [s]) = first) ∧
    ∀ r : Program, r.check = .ok () →
      let ended := session.runProgram ev r
      ended.1 ≠ .error (.halted .defect) ∧
      ended.2 = { session with
        machine := ⟨ended.2.machine.store, ended.2.machine.output, #[], []⟩ } ∧
      ended.2.Between settings := by
  intro ev first whole
  refine ⟨Program.check_append hp hq, fun v hfirst => ?_, fun failure hfirst => ?_, fun r hr => ?_⟩
  · have hwhole : whole = first.2.ended (runStatements ev v q first.2.machine) :=
      Session.runProgram_append_of_ok hfirst q
    have hsecond := first.2.runProgram_eq ev q
    refine ⟨?_, fun ⟨e, he⟩ => ?_, fun hnone w hw => ?_⟩
    · rw [hwhole, hsecond]
      exact Session.endsAlike_ended _ ev v .null q _
    · rw [hwhole, hsecond, runStatements_of_mem ev he v .null]
    · rw [hwhole, runStatements_of_notMem ev hnone v .null] at hw
      cases hr : runStatements ev .null q first.2.machine with
      | ok u n =>
        rw [bind_of_ok hr] at hw
        cases hw
        rfl
      | error halt n =>
        rw [bind_of_error hr] at hw
        cases hw
  · exact ⟨Session.runProgram_append_of_error hfirst q,
      Session.exists_failing_statement hfirst⟩
  · exact h.runProgram fuel hr

/-- A program fails in its second statement, and what is run next finds what the first one did. -/
theorem runs_compose_failing :
    let settings : Settings := ⟨9, false, fun _ => .error "no such file", #[]⟩
    let session := Session.start settings
    let ev := Evaluator.ofFuel settings 9
    let program (source : String) : Program := (Syntax.parse source).toOption.getD []
    let p := program "a = 1 raise(\"no\") a = 2"
    let q := program "a"
    let first := session.runProgram ev p
    first.1.toOption = none ∧ session.runProgram ev (p ++ q) = first ∧
      (∃ before s after, p = before ++ s :: after ∧
        session.runSingly ev (before ++ [s]) = first) ∧
      first.2.Between settings ∧
      (first.2.runProgram ev q).1.toOption = some (.int 1) := by
  intro settings session ev program p q first
  have hchecked : p.check = .ok () ∧ q.check = .ok () := by decide +kernel
  have hrun : first.1.toOption = none ∧
      (first.2.runProgram ev q).1.toOption = some (.int 1) := by
    decide +kernel
  obtain ⟨-, -, hfailed, hends⟩ := runs_compose .start 9 hchecked.1 hchecked.2
  have hbetween : first.2.Between settings := (hends p hchecked.1).2.2
  cases hfirst : first.1 with
  | ok v =>
    rw [hfirst] at hrun
    cases hrun.1
  | error failure =>
    obtain ⟨hwhole, before, s, after, v, hsplit, -, -, hsingly⟩ := hfailed failure hfirst
    exact ⟨rfl, hwhole, ⟨before, s, after, hsplit, hsingly⟩, hbetween, hrun.2⟩

end Rill
