import Rill.Proofs.Persistence
import Rill.Proofs.Renumbering.Statements
import Rill.Proofs.Veil.Sessions

/-! In all states that come about, the functions that values refer to were made. -/
namespace Rill

open Eval Renumbering

theorem Eval.after_ignored {α : Type} (x : Eval α) (m : Machine) :
    Eval.after (do let _ ← x) m = x.after m := by
  unfold Eval.after
  cases h : x m with
  | ok a n => rw [bind_of_ok h]; rfl
  | error halt n => rw [bind_of_error h]

/-- What holds after a computation and after what follows it holds after both. -/
theorem Eval.after_bind {α β : Type} {P : Store → Prop} {m : Machine} {x : Eval α}
    {f : α → Eval β} (hx : P (x.after m).store)
    (hf : ∀ a n, P n.store → P ((f a).after n).store) : P ((x >>= f).after m).store := by
  unfold Eval.after at hx hf ⊢
  cases h : x m with
  | ok a n =>
    rw [h] at hx
    rw [bind_of_ok h]
    exact hf a n hx
  | error halt n =>
    rw [h] at hx
    rw [bind_of_error h]
    exact hx

namespace Store

/-- A function that nothing refers to can be added. -/
theorem Closed.exists_renumbered {s : Store} (hs : s.Closed) :
    ∃ t, s.Renumbered s.functions.size t :=
  ⟨_, hs.renumbered_push ⟨⟨⟨"", default⟩, [], [], default⟩, 0, none, false⟩⟩

/-- What an action does on both sides leaves all functions made. -/
theorem Closed.ofActs {α : Type} [Carries α] {s : Store} (hs : s.Closed) {x y : Action α}
    (h : Acts s.functions.size s.functions.size x y) : (x s).2.Closed := by
  obtain ⟨t, hst⟩ := hs.exists_renumbered
  exact (h s t hst le_rfl).store.closed

end Store

/-- So does what a program does on both sides. -/
theorem Store.Closed.ofRuns {α : Type} [Carries α] {m : Machine} (hm : m.store.Closed)
    {x y : Eval α} (h : Runs m.made m.made x y) : (x.after m).store.Closed := by
  obtain ⟨t, hst⟩ := hm.exists_renumbered
  have hended := h m { m with store := t } ⟨hst, rfl, rfl, rfl⟩ le_rfl
  unfold Eval.after
  generalize x m = r at hended
  generalize y { m with store := t } = r' at hended
  cases hended with
  | ok _ _ hafter _ => exact hafter.store.closed
  | error hafter _ => exact hafter.store.closed

namespace Session

theorem closed_install : (install.run Store.empty).2.Closed := by
  obtain ⟨hlists, hdicts, hfunctions, hmodules, hinstances⟩ := empty_install
  have hclass {c : Class} (hc : c ∈ (install.run Store.empty).2.classes) {P : Value → Prop}
      (hP : ∀ b, P (.native (.builtin b))) : c.attributes.All fun _ v => P v := by
    rw [classes_install] at hc
    obtain ⟨b, -, rfl⟩ := List.mem_map.mp (List.mem_toArray.mp hc)
    apply Table.All.ofList
    intro e he
    obtain ⟨f, -, rfl⟩ := List.mem_map.mp he
    exact hP f
  constructor
  · rw [cells_install]
    intro v hv
    rcases List.mem_append.mp (List.mem_toArray.mp hv) with hv | hv
    · obtain ⟨c, -, rfl⟩ := List.mem_map.mp hv
      trivial
    · obtain ⟨f, -, rfl⟩ := List.mem_map.mp hv
      trivial
  · rw [hlists]
    exact below_empty _
  · rw [hdicts]
    exact below_empty _
  · rw [Array.eq_empty_of_size_eq_zero hfunctions]
    exact below_empty _
  · exact fun c hc => hclass hc fun _ => trivial
  · rw [Array.eq_empty_of_size_eq_zero hinstances]
    exact below_empty _
  · rw [Array.eq_empty_of_size_eq_zero hmodules]
    exact below_empty _
  · exact fun c hc => hclass hc fun _ => nofun

theorem renumbers_installHosts {n k : Nat} (number : Nat) (hosts : List HostFunction) :
    Acts n k (installHosts number hosts) (installHosts number hosts) := by
  induction hosts generalizing k number with
  | nil => exact .pure rfl trivial
  | cons f fs ih =>
    have hhost : Below k (Value.native (.host ⟨f.name, f.arity, number⟩)) := trivial
    exact .bind (acts_bind globals f.name hhost) fun _ _ _ _ => ih (number + 1)

/-- What follows an action acts on what that leaves. -/
theorem closed_after {α : Type} {x : Store.Action α} {y : Store.Action Unit} {s : Store}
    (hx : (x.run s).2.Closed) (hy : ∀ n k, Acts n k y y) :
    ((do let _ ← x; y : Store.Action Unit).run s).2.Closed :=
  hx.ofActs (hy _ _)

theorem closed_start (settings : Settings) : (start settings).machine.store.Closed := by
  rw [store_start]
  exact closed_after closed_install fun _ _ => renumbers_installHosts 0 settings.hosts.toList

end Session

namespace Deed

instance : Carries Deed where
  renumber n
    | call callee arguments span => call (renumber n callee) (renumber n arguments) span
    | deed => deed
  Below k
    | call callee arguments _ => Below k callee ∧ Below k arguments
    | _ => True
  mono {_ _ deed} h hjk := by
    cases deed with
    | call callee arguments span => exact ⟨h.1.mono hjk, h.2.mono hjk⟩
    | _ => trivial
  fixed {n deed} h := by
    cases deed with
    | call callee arguments span =>
      have hcall := congrArg₂ (call · · span) h.1.fixed h.2.fixed
      exact hcall
    | _ => rfl

theorem renumbers_run {n k : Nat} {ev : Evaluator} (h : ev.Oblivious) {deed : Deed}
    (hd : Below k deed) : Runs n k (deed.run ev) ((renumber n deed).run ev) := by
  cases deed with
  | eval e env =>
    exact .bind (Syntax.Expr.renumbers_eval h env k e) fun _ _ _ _ => .pure rfl trivial
  | exec stmt env =>
    exact .bind (Syntax.Stmt.renumbers_exec h env k stmt) fun _ _ _ _ => .pure rfl trivial
  | call callee arguments span =>
    exact .bind (h.call span hd.1 hd.2) fun _ _ _ _ => .pure rfl trivial

end Deed

/-- The stores that come about under some settings: after whatever a program does, wherever it
stands and however that ends, and in the middle of it, where scopes are entered, names and receivers
bound and instances made before the program goes on; and after the host has bound a global variable.
None of these makes up functions. -/
inductive Store.Attained (settings : Settings) : Store → Prop
  | start : Attained settings (Session.start settings).machine.store
  | deed {m : Machine} (fuel : Nat) {deed : Deed} : Attained settings m.store →
      Below m.made deed → Attained settings ((deed.run (.ofFuel settings fuel)).after m).store
  | enter {s : Store} (frame : Frame) : Attained settings s →
      Attained settings (Store.newFrame frame s).2
  | bind {s : Store} {v : Value} (frame : Nat) (name : String) : Attained settings s →
      Below s.functions.size v → Attained settings (Store.bind frame name v s).2
  | receive {s : Store} {method receiver : Value} : Attained settings s →
      Below s.functions.size method → Below s.functions.size receiver →
      Attained settings (Evaluator.bindMethod method receiver s).2
  | make {s : Store} {fields : Table String Value} (type : Nat) : Attained settings s →
      Below s.functions.size fields → Attained settings (Store.newInstance type fields s).2
  | define {s t : Store} {v : Value} (name : String) (value : HostValue) : Attained settings s →
      Below s.functions.size value → value.toValue s = .ok v t →
      Attained settings (Store.bind globals name v t).2

namespace Store.Attained

variable {settings : Settings}

theorem closed (hhosts : ∀ f ∈ settings.hosts, f.Oblivious)
    (hhonest : ∀ f ∈ settings.hosts, f.Honest) {s : Store} (h : s.Attained settings) :
    s.Closed := by
  induction h with
  | start => exact Session.closed_start settings
  | @deed m fuel deed _ hd ih =>
    have hev := Evaluator.oblivious_ofFuel hhosts hhonest fuel
    exact ih.ofRuns (Deed.renumbers_run hev hd)
  | enter frame _ ih => exact ih.ofActs (acts_newFrame frame)
  | bind frame name _ hv ih => exact ih.ofActs (acts_bind frame name hv)
  | receive _ hmethod hreceiver ih =>
    exact ih.ofActs (Evaluator.renumbers_bindMethod hmethod hreceiver)
  | make type _ hfields ih => exact ih.ofActs (acts_newInstance type hfields)
  | @define s t v name value _ hvalue hv ih =>
    obtain ⟨s', hs'⟩ := ih.exists_renumbered
    have hended := HostValue.renumbers_toValue _ value hvalue s s' hs' le_rfl
    rw [hv] at hended
    generalize (value.renumbered s.functions.size).toValue s' = r at hended
    cases hended with
    | ok _ hbelow hafter _ =>
      exact hafter.closed.ofActs (acts_bind globals name hbelow)

/-- A run of statements is one deed after another. -/
theorem runStatements {m : Machine} (h : m.store.Attained settings) (fuel : Nat) (last : Value)
    (program : List Syntax.Stmt) :
    ((Rill.runStatements (.ofFuel settings fuel) last program).after m).store.Attained settings := by
  induction program generalizing m last with
  | nil => exact h
  | cons stmt rest ih =>
    have hstray (signal : Signal) (n : Machine) (hn : n.store.Attained settings) :
        (((Evaluator.ofFuel settings fuel).stray signal).after n).store.Attained settings := by
      cases fuel <;> exact hn
    have hsignal : ((do
        (Evaluator.ofFuel settings fuel).stray (← stmt.exec (.ofFuel settings fuel) globals)
        Rill.runStatements (.ofFuel settings fuel) last rest : Eval Value).after m).store.Attained
          settings := by
      have hexec := h.deed fuel (show Below m.made (Deed.exec stmt globals) from trivial)
      rw [Deed.run, after_ignored] at hexec
      refine after_bind hexec fun signal n hn => ?_
      exact after_bind (hstray signal n hn) fun _ o ho => ih ho last
    cases stmt with
    | expr e =>
      have heval := h.deed fuel (show Below m.made (Deed.eval e globals) from trivial)
      rw [Deed.run, after_ignored] at heval
      exact after_bind heval fun v n hn => ih hn v
    | _ => exact hsignal

/-- The sources that a session runs lead to such stores. -/
theorem runWith {session : Session} (h : session.machine.store.Attained settings) (fuel : Nat)
    (source : String) :
    (session.runWith (.ofFuel settings fuel) source).2.machine.store.Attained settings := by
  rcases Session.runWith_cases session source with ⟨failure, -, hrun⟩ | ⟨program, -, hrun⟩
  · rw [hrun]
    exact h
  · have hafter := h.runStatements fuel .null program
    rw [hrun, Session.runProgram]
    unfold Eval.after at hafter
    cases hr : Rill.runStatements (.ofFuel settings fuel) .null program session.machine with
    | ok v n =>
      rw [hr] at hafter
      exact hafter
    | error halt n =>
      rw [hr] at hafter
      exact hafter

end Store.Attained
end Rill
