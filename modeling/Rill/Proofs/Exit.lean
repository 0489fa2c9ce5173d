import Rill.Proofs.Reachable

/-! A program that calls `exit` ends there, wherever the call is. -/
namespace Rill

open Text (Span)
open Eval

/-- All that a program leaves when it ends with a code. -/
structure Farewell where
  code : Int
  store : Store
  output : String

namespace Machine

/-- What a machine leaves if it ends with this code. -/
def farewell (m : Machine) (code : Int) : Farewell := ⟨code, m.store, m.output⟩

/-- The same machine, except that it leaves something else. -/
def leaving (m : Machine) (left : Farewell) : Machine :=
  { m with store := left.store, output := left.output }

end Machine

/-- The receiver that comes before the arguments in a call of a value. -/
def Value.receivers : Value → List Value
  | .bound _ receiver => [receiver]
  | _ => []

variable (part : List Value → Farewell → Farewell)

/-- How two runs end together: as a call of `exit` says, where `part` changes what the second run
leaves, or in the same other way. -/
inductive Departs : Halt → Machine → Halt → Machine → Prop
  | exit {arguments : List Value} {code : Int} (n : Machine) : Evaluator.Exits arguments code →
      Departs (.exit code) n (.exit (part arguments (n.farewell code)).code)
        (n.leaving (part arguments (n.farewell code)))
  | other {h : Halt} (n : Machine) : (∀ code, h ≠ .exit code) → Departs h n h n

variable {part}

theorem Departs.inCall {h h' : Halt} {n n' : Machine} (hd : Departs part h n h' n') :
    Departs part h { n with calls := n.calls.pop } h' { n' with calls := n'.calls.pop } := by
  cases hd with
  | exit n hexits => exact .exit { n with calls := n.calls.pop } hexits
  | other n hne => exact .other _ hne

theorem Departs.inInclude {h h' : Halt} {n n' : Machine} (hd : Departs part h n h' n') :
    Departs part h { n with includes := n.includes.tail } h'
      { n' with includes := n'.includes.tail } := by
  cases hd with
  | exit n hexits => exact .exit { n with includes := n.includes.tail } hexits
  | other n hne => exact .other _ hne

variable (part)

/-- The regime in which the second run ends where the first one does, and what `part` changed then is
not changed after that. -/
def departure : Regime where
  Starts _ := True
  Halts _ h n r := ∃ h' n', Departs part h n h' n' ∧ r = .error h' n'
  halts_after _ hh := hh
  halts_bind _ := fun ⟨h', n', hd, hr⟩ => ⟨h', n', hd, bind_of_error hr⟩
  halts_outOfFuel m := ⟨_, _, .other m nofun, rfl⟩
  halts_raise {_ m _} _ _ := ⟨_, _, .other m nofun, rfl⟩
  halts_raiseWith {_ m n h h' id span x y} _ _ hx hh hrun := by
    obtain ⟨k, n', hd, hy⟩ := hh
    cases hd with
    | exit n hexits =>
      rw [raiseWith_of_halt hx nofun] at hrun
      cases hrun
      exact ⟨_, _, .exit n hexits, raiseWith_of_halt hy nofun id span⟩
    | other n hne =>
      -- only an exception on the way to the text is dropped, and that is no exit
      cases h with
      | exit code => exact absurd rfl (hne code)
      | exception e =>
        rw [raiseWith_of_exception hx] at hrun
        cases hrun
        exact ⟨_, _, .other n nofun, raiseWith_of_exception hy id span⟩
      | _ =>
        rw [raiseWith_of_halt hx nofun] at hrun
        cases hrun
        exact ⟨_, _, .other n hne, raiseWith_of_halt hy nofun id span⟩
  halts_inCall _ := fun ⟨_, _, hd, hr⟩ => ⟨_, _, hd.inCall, inCall_of_error hr⟩
  halts_inInclude _ _ := fun ⟨_, _, hd, hr⟩ => ⟨_, _, hd.inInclude, inInclude_of_error hr⟩

theorem departure_bounds (limit : Nat) : (departure part).Bounds limit where
  starts _ _ _ := trivial
  overflow {m _ _} _ _ _ _ := ⟨_, _, .other m nofun, rfl⟩

namespace Evaluator

/-- What a call does, except that `part` gets to change what is left when `exit` ends the program. -/
def parted (callee : Value) (arguments : List Value) (body : Eval Value) : Eval Value := fun m =>
  match callee.native?, body m with
  | some (.builtin (.global .exit)), .error (.exit code) n =>
    let left := part (callee.receivers ++ arguments) (n.farewell code)
    .error (.exit left.code) (n.leaving left)
  | _, result => result

/-- The evaluator in which calls of `exit` change what they leave. -/
def parting (settings : Settings) (fuel : Nat) : Evaluator :=
  ofDispatch (fun ev callee arguments span =>
    parted part callee arguments (ev.dispatch callee arguments span)) (fun _ => return ())
    unwatched settings fuel

/-- A call of `exit` under any evaluator ends the program, or something is wrong with the
arguments. -/
theorem native_exit_cases (receiver : Option Value) (arguments : List Value) (span : Span) :
    (∃ code, Exits (receiver.toList ++ arguments) code ∧
      ∀ ev : Evaluator, ev.native (.builtin (.global .exit)) receiver arguments span =
        throw (.exit code)) ∨
      ∃ fault : Store → Fault, ∀ ev : Evaluator,
        ev.native (.builtin (.global .exit)) receiver arguments span =
          (do raise (fault (← store)) span) := by
  by_cases ha : GlobalFunction.exit.arity.accepts (receiver.toList ++ arguments).length = true
  · have hrun (ev : Evaluator) : ev.native (.builtin (.global .exit)) receiver arguments span =
        exit (receiver.toList ++ arguments) span := if_pos ha
    rcases exit_cases span ha with ⟨code, hexits, hexit⟩ | ⟨message, hexit⟩
    · exact .inl ⟨code, hexits, fun ev => (hrun ev).trans hexit⟩
    · exact .inr ⟨fun s => .invalidArgument (message s), fun ev => (hrun ev).trans hexit⟩
  · exact .inr ⟨fun _ => _, fun ev => if_neg ha⟩

theorem parted_of_ne {callee : Value} (h : callee.native? ≠ some (.builtin (.global .exit)))
    (arguments : List Value) (body : Eval Value) : parted part callee arguments body = body := by
  funext m
  unfold parted
  split
  · next hcallee _ => exact absurd hcallee h
  · rfl

theorem parted_of_exit {callee : Value} (h : callee.native? = some (.builtin (.global .exit)))
    (arguments : List Value) (code : Int) (m : Machine) :
    parted part callee arguments (throw (.exit code)) m =
      .error (.exit (part (callee.receivers ++ arguments) (m.farewell code)).code)
        (m.leaving (part (callee.receivers ++ arguments) (m.farewell code))) := by
  unfold parted
  rw [h]
  rfl

theorem parted_of_raise (callee : Value) (arguments : List Value) (fault : Store → Fault)
    (span : Span) :
    parted part callee arguments (do raise (fault (← store)) span) =
      (do raise (fault (← store)) span) := by
  funext m
  unfold parted
  split
  · next hrun =>
    obtain ⟨s, e, -, -, -, hraise⟩ := exists_raise (α := Value) (fault m.store) span m
    cases hraise.symm.trans hrun
  · rfl

/-- The only calls in which the runs part are those of `exit`. -/
theorem parted_abides {homes : Set Nat} {ev ev' : Evaluator}
    (h : (departure part).Governs homes ev ev') (callee : Value) (arguments : List Value)
    (span : Span) :
    (departure part).Abides homes (ev.dispatch callee arguments span)
      (parted part callee arguments (ev'.dispatch callee arguments span)) := by
  by_cases hcallee : callee.native? = some (.builtin (.global .exit))
  · obtain ⟨receiver, hreceiver, hrun⟩ : ∃ receiver : Option Value,
        callee.receivers = receiver.toList ∧ ∀ ev : Evaluator, ev.dispatch callee arguments span =
          ev.native (.builtin (.global .exit)) receiver arguments span := by
      cases callee with
      | native f => cases hcallee; exact ⟨none, rfl, fun _ => rfl⟩
      | bound f receiver => cases hcallee; exact ⟨some receiver, rfl, fun _ => rfl⟩
      | _ => cases hcallee
    rw [hrun ev, hrun ev']
    rcases native_exit_cases receiver arguments span with ⟨code, hexits, hexit⟩ | ⟨fault, hexit⟩
    · rw [hexit ev, hexit ev']
      refine fun m _ _ => .ofError rfl (.refl m) ?_
      rw [parted_of_exit part hcallee, hreceiver]
      exact ⟨_, _, .exit m hexits, rfl⟩
    · rw [hexit ev, hexit ev', parted_of_raise]
      exact .bind .store fun _ _ => .raise _ span
  · rw [parted_of_ne part hcallee]
    exact dispatch_abides h callee arguments span fun heq => absurd heq hcallee

theorem ofFuel_departs (settings : Settings) (fuel : Nat) :
    (departure part).Governs Set.univ (ofFuel settings fuel) (parting part settings fuel) := by
  unfold ofFuel parting
  rw [ofFuelWith_eq]
  exact ofDispatch_governs rfl rfl unwatched_abides (fun _ => trivial) (departure_bounds part _)
    (fun _ h callee arguments span => parted_abides part h callee arguments span) fuel
    fun _ => Set.mem_univ _

end Evaluator

/-- A call of `exit` ends the whole run with its code, or with zero if it had none, and nothing
happens after it: whatever is made of the code, the store and the output at the very moment when
`exit` ends the program, it is what the run leaves, and it is made of what the run leaves otherwise.
In a run that ends in any other way `exit` has ended the program nowhere: had it, and had something
kept it from doing so, the change would show. -/
theorem exit_ends_run {settings : Settings} {session : Session} (h : session.Reachable settings)
    (fuel : Nat) (source : String) :
    let usual := session.runWith (.ofFuel settings fuel) source
    let changed := session.runWith (.parting part settings fuel) source
    (∃ arguments code, Evaluator.Exits arguments code ∧ usual.1 = .error (.halted (.exit code)) ∧
      let left := part arguments (usual.2.machine.farewell code)
      changed = (.error (.halted (.exit left.code)),
        { session with machine := usual.2.machine.leaving left })) ∨
    (∀ code, usual.1 ≠ .error (.halted (.exit code))) ∧ changed = usual := by
  intro usual changed
  have hev := Evaluator.ofFuel_departs part settings fuel
  rcases Session.runWith_abides hev (Set.mem_univ globals) h.checked trivial source with
    ⟨hrun, hne, -⟩ | ⟨halt, n, r, husual, hchanged, -, halt', n', hd, rfl⟩
  · exact .inr ⟨fun code => hne _, hrun.symm⟩
  have husual : usual = (.error (.halted halt), { session with machine := n }) := husual
  have hchanged : changed = (.error (.halted halt'), { session with machine := n' }) := hchanged
  cases hd with
  | @exit arguments code n hexits =>
    rw [husual, hchanged]
    exact .inl ⟨arguments, code, hexits, rfl, rfl⟩
  | other n hne =>
    rw [husual, hchanged]
    refine .inr ⟨fun code hcode => hne code ?_, rfl⟩
    injection hcode with hcode
    injection hcode

/-- Whether a run ended with a code, and with which. -/
def Failure.code? : Except Failure Value → Option Int
  | .error (.halted (.exit code)) => some code
  | _ => none

theorem Failure.eq_of_code? {outcome : Except Failure Value} {code : Int}
    (h : code? outcome = some code) : outcome = .error (.halted (.exit code)) := by
  unfold code? at h
  split at h
  · cases h
    rfl
  · cases h

/-- While an exception is raised its text is asked for, and `exit` is called there. -/
theorem exit_ends_run_raising :
    let settings : Settings := ⟨9, false, fun _ => .error "no such file", #[]⟩
    let session := Session.start settings
    let source := "class A(Exception) \x7b fun __str__() \x7b exit(3) \x7d \x7d raise(A())"
    let part (_ : List Value) (left : Farewell) : Farewell := { left with code := -left.code }
    session.Reachable settings ∧
      (session.runWith (.ofFuel settings 9) source).1 = .error (.halted (.exit 3)) ∧
      (session.runWith (.parting part settings 9) source).1 = .error (.halted (.exit (-3))) := by
  intro settings session source part
  have hcode : Failure.code? (session.runWith (.ofFuel settings 9) source).1 = some 3 := by
    decide +kernel
  have hthree := Failure.eq_of_code? hcode
  refine ⟨.start, hthree, ?_⟩
  rcases exit_ends_run part Session.Reachable.start 9 source with
    ⟨arguments, code, -, husual, hchanged⟩ | ⟨hne, -⟩
  · cases hthree.symm.trans husual
    rw [hchanged]
    rfl
  · exact absurd hthree (hne 3)

end Rill
