import Rill.Proofs.Progressions
import Rill.Proofs.Regime.Operations

/-! Built-in functions find every argument that they look for, given a number that they accept. -/
namespace Rill

open Text (Span)
open Eval

variable {R : Regime} {homes : Set Nat}

/-- Both runs may end with the same code. -/
def Regime.LetsExit (R : Regime) : Prop :=
  ∀ m code, R.Halts (α := Value) m (.exit code) m (.error (.exit code) m)

namespace Arity

theorem least_le_of_accepts {a : Arity} {n : Nat} (h : a.accepts n = true) : a.least ≤ n := by
  simp only [accepts, Bool.and_eq_true, decide_eq_true_eq] at h
  exact h.1

theorem le_of_accepts_between {least most n : Nat} (h : (between least most).accepts n = true) :
    n ≤ most := by
  simp only [accepts, between, Bool.and_eq_true, decide_eq_true_eq] at h
  exact h.2

end Arity

namespace HostAction

theorem keeps_onStore {α : Type} (action : HostAction α) :
    Store.Keeps homes action.onStore fun _ => True :=
  .ofStep (fun s => .handles (action s s.handles).2) (fun _ => rfl) fun _ => rfl

end HostAction

namespace Evaluator

theorem argument_abides {arguments : List Value} {position : Nat}
    (h : position < arguments.length) :
    R.Abides homes (argument arguments position) (argument arguments position) := by
  unfold argument
  rw [List.getElem?_eq_getElem h]
  exact .done _

theorem invalidReceiver_abides {α : Type} {Q : α → Prop} (expected : String)
    (actual : Option Value) (span : Span) :
    R.AbidesWith homes Q (invalidReceiver expected actual span)
      (invalidReceiver expected actual span) :=
  .bind .store fun _ _ => .invalid _ span

theorem thisList_abides (arguments : List Value) (span : Span) :
    R.Abides homes (thisList arguments span) (thisList arguments span) := by
  unfold thisList
  split
  · exact .done _
  · exact invalidReceiver_abides _ _ span

theorem thisDict_abides (arguments : List Value) (span : Span) :
    R.Abides homes (thisDict arguments span) (thisDict arguments span) := by
  unfold thisDict
  split
  · exact .done _
  · exact invalidReceiver_abides _ _ span

theorem thisString_abides (arguments : List Value) (span : Span) :
    R.Abides homes (thisString arguments span) (thisString arguments span) := by
  unfold thisString
  split
  · exact .done _
  · exact invalidReceiver_abides _ _ span

theorem thisInstance_abides (arguments : List Value) (span : Span) :
    R.Abides homes (thisInstance arguments span) (thisInstance arguments span) := by
  unfold thisInstance
  split
  · exact .done _
  · exact invalidReceiver_abides _ _ span

theorem newIterator_abides (elements : Array Value) :
    R.Abides homes (newIterator elements) (newIterator elements) :=
  .bind (.action (Store.keeps_newList _)) fun _ _ =>
    .bind (.action (Store.keeps_newInstance _ _)) fun _ _ => .done _

theorem rangeOf_abides (start stop step : Int64) (span : Span) :
    R.Abides homes (rangeOf start stop step span) (rangeOf start stop step span) := by
  by_cases hstep : step = 0
  · rw [rangeOf, if_pos hstep]
    exact .invalid _ span
  obtain ⟨n, hn, -⟩ := exists_progressionLength start stop hstep
  rw [rangeOf_eq hstep hn]
  split
  · exact .raise _ span
  · exact .action (Store.keeps_newList _)

/-- The bounds are one, two or three, like the arguments. -/
theorem range_abides {arguments : List Value} (span : Span)
    (h : GlobalFunction.range.arity.accepts arguments.length = true) :
    R.Abides homes (range arguments span) (range arguments span) := by
  have hleast : 1 ≤ arguments.length := Arity.least_le_of_accepts h
  have hmost : arguments.length ≤ 3 := Arity.le_of_accepts_between h
  refine .bind (.mapM (fun v => intArgument_abides v _ span) arguments) fun bounds hlength => ?_
  match bounds, hlength with
  | [_], _ | [_, _], _ | [_, _, _], _ => exact rangeOf_abides _ _ _ span
  | [], hlength => simp only [List.length_nil] at hlength; omega
  | _ :: _ :: _ :: _ :: _, hlength => simp only [List.length_cons] at hlength; omega

theorem isInstance_abides (v type : Value) (span : Span) :
    R.Abides homes (isInstance v type span) (isInstance v type span) := by
  refine .bind .store fun s _ => ?_
  split
  · exact .done _
  · exact .invalid _ span

theorem toInt_abides (v : Value) (span : Span) : R.Abides homes (toInt v span) (toInt v span) := by
  have hno : R.Abides homes (toInt.unconvertible v span) (toInt.unconvertible v span) :=
    .bind .store fun _ _ => .invalid _ span
  unfold toInt
  split
  · exact .done _
  · exact .done _
  · split
    · exact .done _
    · exact hno
  · split
    · exact .done _
    · exact .bind .store fun _ _ => .invalid _ span
  · exact hno

theorem toFloat_abides (v : Value) (span : Span) :
    R.Abides homes (toFloat v span) (toFloat v span) := by
  unfold toFloat
  split
  · exact .done _
  · exact .done _
  · exact .done _
  · split
    · exact .done _
    · exact .bind .store fun _ _ => .invalid _ span
  · exact .bind .store fun _ _ => .invalid _ span

/-- The code that a program ends with if it calls `exit` with these arguments. -/
def Exits (arguments : List Value) (code : Int) : Prop :=
  (arguments = [] ∧ code = 0) ∨
    ∃ i : Int64, arguments = [.int i] ∧ code = i.toInt ∧
      Int32.minValue.toInt ≤ code ∧ code ≤ Int32.maxValue.toInt

/-- A call of `exit` ends the program, or its argument is at fault. -/
theorem exit_cases {arguments : List Value} (span : Span)
    (h : GlobalFunction.exit.arity.accepts arguments.length = true) :
    (∃ code, Exits arguments code ∧ exit arguments span = throw (.exit code)) ∨
      ∃ message : Store → String,
        exit arguments span = (do invalid (message (← store)) span) := by
  have hmost : arguments.length ≤ 1 := Arity.le_of_accepts_between h
  match arguments, hmost with
  | [], _ => exact .inl ⟨0, .inl ⟨rfl, rfl⟩, rfl⟩
  | [v], _ =>
    cases v with
    | int i =>
      by_cases hi : Int32.minValue.toInt ≤ i.toInt ∧ i.toInt ≤ Int32.maxValue.toInt
      · exact .inl ⟨i.toInt, .inr ⟨i, rfl, rfl, hi⟩, (pure_bind i _).trans (if_pos hi)⟩
      · exact .inr ⟨fun _ => _, (pure_bind i _).trans (if_neg hi)⟩
    | _ => exact .inr ⟨fun s => "Exit code must be an int, not " ++ s.typeName _ ++ ".", rfl⟩
  | _ :: _ :: _, hmost => simp only [List.length_cons] at hmost; omega

theorem exit_abides (hexit : R.LetsExit) {arguments : List Value} (span : Span)
    (h : GlobalFunction.exit.arity.accepts arguments.length = true) :
    R.Abides homes (exit arguments span) (exit arguments span) := by
  rcases exit_cases span h with ⟨code, -, hrun⟩ | ⟨message, hrun⟩
  · rw [hrun]
    exact fun m _ _ => .ofError rfl (.refl m) (hexit m code)
  · rw [hrun]
    exact .bind .store fun _ _ => .invalid _ span

theorem split_abides (s : String) (separator : Value) (span : Span) :
    R.Abides homes (split s separator span) (split s separator span) := by
  have hlist (parts : List String) (_ : True) : R.Abides homes
      (liftM (Store.newList (parts.map Value.str).toArray))
      (liftM (Store.newList (parts.map Value.str).toArray)) :=
    .action (Store.keeps_newList _)
  unfold split
  split
  · exact .bind (.done _) hlist
  · split
    · exact .bind (.invalid _ span) hlist
    · exact .bind (.done _) hlist
  · exact .bind .store fun _ _ => .bind (.invalid _ span) hlist

theorem iteratorNext_abides (this : Nat) (span : Span) :
    R.Abides homes (iteratorNext this span) (iteratorNext this span) := by
  refine .bind .store fun s _ => ?_
  split
  · split
    · exact .done _
    · refine .bind (.attempt (Store.safe_listGet _ _) span) fun element _ => ?_
      exact .bind (.action (Store.keeps_setField _ _ _)) fun _ _ =>
        .action (Store.keeps_newItem element)
  · exact invalidReceiver_abides _ _ span

theorem dictMethod_abides (f : DictMethod) {arguments : List Value} (span : Span)
    (h : f.arity.accepts arguments.length = true) :
    R.Abides homes (dictMethod f arguments span) (dictMethod f arguments span) := by
  have hleast := Arity.least_le_of_accepts h
  refine .bind (thisDict_abides arguments span) fun this _ => ?_
  cases f with
  | get =>
    refine .bind (argument_abides hleast) fun key _ => ?_
    split
    · exact .bind (.attempt (Store.safe_dictGet? this key) span) fun _ _ => .done _
    · exact .attempt (Store.safe_dictGet this key) span
  | set =>
    refine .bind (argument_abides (Nat.lt_of_succ_lt hleast)) fun key _ => ?_
    refine .bind (argument_abides hleast) fun v _ => ?_
    exact .bind (.attempt (Store.safe_dictSet this key v) span) fun _ _ => .done _
  | length => exact .bind .store fun _ _ => .done _
  | remove =>
    exact .bind (argument_abides hleast) fun key _ => .attempt (Store.safe_dictRemove this key) span
  | contains =>
    exact .bind (argument_abides hleast) fun key _ =>
      .bind (.attempt (Store.safe_dictContains this key) span) fun _ _ => .done _
  | keys =>
    exact .bind (.action (Store.keeps_dictKeys this)) fun _ _ => .action (Store.keeps_newList _)
  | values =>
    exact .bind (.action (Store.keeps_dictValues this)) fun _ _ => .action (Store.keeps_newList _)
  | iter =>
    exact .bind (.action (Store.keeps_dictKeys this)) fun keys _ => newIterator_abides keys

theorem stringMethod_abides (f : StringMethod) (arguments : List Value) (span : Span) :
    R.Abides homes (stringMethod f arguments span) (stringMethod f arguments span) := by
  refine .bind (thisString_abides arguments span) fun this _ => ?_
  cases f with
  | length | upper | lower => exact .done _
  | split => exact split_abides this _ span
  | iter => exact newIterator_abides _

theorem iteratorMethod_abides (f : IteratorMethod) (arguments : List Value) (span : Span) :
    R.Abides homes (iteratorMethod f arguments span) (iteratorMethod f arguments span) := by
  refine .bind (thisInstance_abides arguments span) fun this _ => ?_
  cases f with
  | next => exact iteratorNext_abides this span
  | iter => exact .done _

variable {ev ev' : Evaluator} (h : R.Governs homes ev ev')

include h

theorem print_abides (arguments : List Value) (span : Span) :
    R.Abides homes (ev.print arguments span) (ev'.print arguments span) :=
  .bind (.mapM (fun v => text_abides h false v span) arguments) fun _ _ =>
    .bind (.print _) fun _ _ => .done _

theorem raiseValue_abides (v : Value) (span : Span) :
    R.Abides homes (ev.raiseValue v span) (ev'.raiseValue v span) := by
  refine .bind .store fun s _ => ?_
  split
  · exact .bind (.action (Store.keeps_newInstance _ _)) fun id _ => raiseInstance_abides h id span
  · split
    · exact raiseInstance_abides h _ span
    · exact .invalid _ span
  · exact .invalid _ span

theorem containsEqual_abides (v : Value) (span : Span) (xs : List Value) :
    R.Abides homes (ev.containsEqual v span xs) (ev'.containsEqual v span xs) := by
  induction xs with
  | nil => exact .done _
  | cons x xs ih =>
    refine .bind (equal_abides h x v span) fun found _ => ?_
    split
    · exact .done _
    · exact ih

theorem mapCalls_abides (f : Value) (span : Span) (done : Array Value) (xs : List Value) :
    R.Abides homes (ev.mapCalls f span done xs) (ev'.mapCalls f span done xs) := by
  induction xs generalizing done with
  | nil => exact .done _
  | cons x xs ih => exact .bind (h.call f [x] span) fun y _ => ih (done.push y)

theorem filterCalls_abides (f : Value) (span : Span) (kept : Array Value) (xs : List Value) :
    R.Abides homes (ev.filterCalls f span kept xs) (ev'.filterCalls f span kept xs) := by
  induction xs generalizing kept with
  | nil => exact .done _
  | cons x xs ih =>
    refine .bind (h.call f [x] span) fun verdict _ => ?_
    refine .bind (truthy_abides h verdict span) fun keep _ => ?_
    split
    · exact ih (kept.push x)
    · exact ih kept

theorem foldCalls_abides (f : Value) (span : Span) (acc : Value) (xs : List Value) :
    R.Abides homes (ev.foldCalls f span acc xs) (ev'.foldCalls f span acc xs) := by
  induction xs generalizing acc with
  | nil => exact .done _
  | cons x xs ih => exact .bind (h.call f [acc, x] span) fun acc _ => ih acc

theorem reduce_abides (f : Value) (initial : Option Value) (elements : List Value) (span : Span) :
    R.Abides homes (ev.reduce f initial elements span) (ev'.reduce f initial elements span) := by
  unfold reduce
  split
  · exact foldCalls_abides h f span _ _
  · exact foldCalls_abides h f span _ _
  · exact .invalid _ span

theorem exceptionMethod_abides (f : ExceptionMethod) (arguments : List Value) (span : Span) :
    R.Abides homes (ev.exceptionMethod f arguments span) (ev'.exceptionMethod f arguments span) := by
  refine .bind (thisInstance_abides arguments span) fun this _ => ?_
  cases f with
  | init => exact .bind (.action (Store.keeps_setField this _ _)) fun _ _ => .done _
  | str =>
    refine .bind .store fun s _ => ?_
    split
    · exact .done _
    · exact .done _
    · exact .bind (text_abides h false _ span) fun _ _ => .done _

theorem listMethod_abides (f : ListMethod) {arguments : List Value} (span : Span)
    (ha : f.arity.accepts arguments.length = true) :
    R.Abides homes (ev.listMethod f arguments span) (ev'.listMethod f arguments span) := by
  have hleast := Arity.least_le_of_accepts ha
  refine .bind (thisList_abides arguments span) fun this _ => ?_
  cases f with
  | get =>
    refine .bind (argument_abides hleast) fun v _ => ?_
    exact .bind (intArgument_abides v _ span) fun index _ =>
      .attempt (Store.safe_listGet this index) span
  | set =>
    refine .bind (argument_abides (Nat.lt_of_succ_lt hleast)) fun v _ => ?_
    refine .bind (intArgument_abides v _ span) fun index _ => ?_
    refine .bind (argument_abides hleast) fun v _ => ?_
    exact .bind (.attempt (Store.safe_listSet this index v) span) fun _ _ => .done _
  | length => exact .bind .store fun _ _ => .done _
  | push =>
    refine .bind (argument_abides hleast) fun v _ => ?_
    exact .bind (.attempt (Store.safe_listPush this v) span) fun _ _ => .done _
  | insert =>
    refine .bind (argument_abides (Nat.lt_of_succ_lt hleast)) fun v _ => ?_
    refine .bind (intArgument_abides v _ span) fun index _ => ?_
    refine .bind (argument_abides hleast) fun v _ => ?_
    exact .bind (.attempt (Store.safe_listInsert this index v) span) fun _ _ => .done _
  | remove =>
    refine .bind (argument_abides hleast) fun v _ => ?_
    exact .bind (intArgument_abides v _ span) fun index _ =>
      .attempt (Store.safe_listRemove this index) span
  | pop => exact .attempt (Store.safe_listPop this) span
  | contains =>
    refine .bind (argument_abides hleast) fun v _ => .bind .store fun s _ => ?_
    exact .bind (containsEqual_abides h v span _) fun _ _ => .done _
  | map =>
    refine .bind (argument_abides hleast) fun f _ => .bind .store fun s _ => ?_
    exact .bind (mapCalls_abides h f span _ _) fun _ _ => .action (Store.keeps_newList _)
  | filter =>
    refine .bind (argument_abides hleast) fun f _ => .bind .store fun s _ => ?_
    exact .bind (filterCalls_abides h f span _ _) fun _ _ => .action (Store.keeps_newList _)
  | reduce =>
    refine .bind (argument_abides hleast) fun f _ => .bind .store fun s _ => ?_
    exact reduce_abides h f _ _ span
  | iter => exact .bind .store fun s _ => newIterator_abides _

theorem globalFunction_abides (f : GlobalFunction) {arguments : List Value} (span : Span)
    (ha : f.arity.accepts arguments.length = true) (hexit : f = .exit → R.LetsExit) :
    R.Abides homes (ev.globalFunction f arguments span) (ev'.globalFunction f arguments span) := by
  have hleast := Arity.least_le_of_accepts ha
  cases f with
  | print => exact print_abides h arguments span
  | str | dump =>
    exact .bind (argument_abides hleast) fun v _ =>
      .bind (text_abides h _ v span) fun _ _ => .done _
  | len | iter | next =>
    exact .bind (argument_abides hleast) fun v _ => callMethod_abides h v _ [] span
  | item => exact .bind (argument_abides hleast) fun v _ => .action (Store.keeps_newItem v)
  | raise => exact .bind (argument_abides hleast) fun v _ => raiseValue_abides h v span
  | exit => exact exit_abides (hexit rfl) span ha
  | range => exact range_abides span ha
  | type =>
    exact .bind .store fun _ _ => .bind (argument_abides hleast) fun _ _ => .done _
  | isinstance =>
    refine .bind (argument_abides hleast) fun type _ => ?_
    exact .bind (argument_abides (Nat.lt_of_succ_lt hleast)) fun v _ =>
      isInstance_abides v type span
  | int => exact .bind (argument_abides hleast) fun v _ => toInt_abides v span
  | float => exact .bind (argument_abides hleast) fun v _ => toFloat_abides v span

theorem builtin_abides (b : Builtin) {arguments : List Value} (span : Span)
    (ha : b.arity.accepts arguments.length = true) (hexit : b = .global .exit → R.LetsExit) :
    R.Abides homes (ev.builtin b arguments span) (ev'.builtin b arguments span) := by
  cases b with
  | global f => exact globalFunction_abides h f span ha fun hf => hexit (congrArg _ hf)
  | exception f => exact exceptionMethod_abides h f arguments span
  | list f => exact listMethod_abides h f span ha
  | dict f => exact dictMethod_abides f span ha
  | string f => exact stringMethod_abides f arguments span
  | iterator f => exact iteratorMethod_abides f arguments span

theorem hostCall_abides (host : HostRef) (arguments : List Value) (span : Span) :
    R.Abides homes (ev.hostCall host arguments span) (ev'.hostCall host arguments span) := by
  have hhosts : ev'.settings.hosts = ev.settings.hosts := by
    obtain ⟨limit, hsettings⟩ := h.settings
    rw [hsettings]
  unfold hostCall
  rw [hhosts]
  split
  · exact .done _
  · refine .bind .store fun s _ => .bind (.action (HostAction.keeps_onStore _)) fun result _ => ?_
    split
    · exact .attempt (HostValue.safe_toValue _) span
    · exact .invalid _ span

/-- A receiver counts as an argument, bound or not, whatever it is. -/
theorem native_abides (f : Native) (receiver : Option Value) (arguments : List Value)
    (span : Span) (hexit : f = .builtin (.global .exit) → R.LetsExit) :
    R.Abides homes (ev.native f receiver arguments span) (ev'.native f receiver arguments span) := by
  unfold native
  dsimp only
  split
  · next ha =>
    cases f with
    | builtin b => exact builtin_abides h b span ha fun hb => hexit (congrArg _ hb)
    | host host => exact hostCall_abides h host _ span
  · exact .raise _ span

end Evaluator
end Rill
