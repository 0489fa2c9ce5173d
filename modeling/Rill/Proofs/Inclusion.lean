import Mathlib.Data.Finset.Card
import Rill.Proofs.Exceptions

/-! A file is not included again while it is being included. -/
namespace Rill

open Text (Span)
open Syntax (Stmt Program included)
open Eval

/-- How inclusions nest from where those of `base` were in progress: these still are, no file is being
included twice, and those that were entered since can be read. -/
structure Settings.Nests (settings : Settings) (base includes : List String) : Prop where
  suffix : base <:+ includes
  nodup : includes.Nodup
  readable : ∀ path ∈ includes, path ∈ base ∨ (settings.source path).isOk = true

namespace Settings.Nests

variable {settings : Settings} {base includes : List String}

instance : Decidable (settings.Nests base includes) :=
  decidable_of_iff
    (base <:+ includes ∧ includes.Nodup ∧
      ∀ path ∈ includes, path ∈ base ∨ (settings.source path).isOk = true)
    ⟨fun ⟨hsuffix, hnodup, hread⟩ => ⟨hsuffix, hnodup, hread⟩,
      fun h => ⟨h.suffix, h.nodup, h.readable⟩⟩

theorem refl (h : base.Nodup) : settings.Nests base base where
  suffix := List.suffix_rfl
  nodup := h
  readable _ hpath := .inl hpath

/-- One more file is entered, which is not being included. -/
theorem push (h : settings.Nests base includes) {path : String} (hpath : path ∉ includes)
    (hread : (settings.source path).isOk = true) : settings.Nests base (path :: includes) where
  suffix := h.suffix.trans (List.suffix_cons path includes)
  nodup := List.nodup_cons.mpr ⟨hpath, h.nodup⟩
  readable path' hpath' := by
    rcases List.mem_cons.mp hpath' with rfl | hpath'
    · exact .inr hread
    · exact h.readable path' hpath'

/-- Inclusions nest no deeper than there are files to read. -/
theorem length_le_card (h : settings.Nests [] includes) {files : Finset String}
    (hfiles : ∀ path text, settings.source path = .ok text → path ∈ files) :
    includes.length ≤ files.card := by
  have hsub : includes.toFinset ⊆ files := by
    intro path hpath
    rcases h.readable path (List.mem_toFinset.mp hpath) with hbase | hread
    · cases hbase
    · cases hs : settings.source path with
      | error reason =>
        rw [hs] at hread
        cases hread
      | ok text => exact hfiles path text hs
  rw [← List.toFinset_card_of_nodup h.nodup]
  exact Finset.card_le_card hsub

end Settings.Nests

namespace Syntax

variable {settings : Settings} {path : String}

theorem readable_of_included {program : Program} (h : included settings path = .ok program) :
    (settings.source path).isOk = true := by
  cases hs : settings.source path with
  | error reason =>
    rw [included_of_error hs] at h
    cases h
  | ok text => rfl

/-- Why a file is not entered while some inclusions are in progress. -/
inductive Barred (settings : Settings) (includes : List String) (path : String) : String → Prop
  /-- It is being included. -/
  | circular : path ∈ includes → Barred settings includes path "circular include"
  | unreadable {reason : String} : path ∉ includes → settings.source path = .error reason →
      Barred settings includes path reason
  | malformed {text : String} {e : Syntax.Error} : path ∉ includes →
      settings.source path = .ok text → parse text = .error e →
      Barred settings includes path e.fault.message
  /-- A statement in it stands where it can take no effect. -/
  | misplaced {text : String} {program : Program} {e : PlacementError} : path ∉ includes →
      settings.source path = .ok text → parse text = .ok program → program.check = .error e →
      Barred settings includes path e.fault.message

theorem included_cases {includes : List String} (hpath : path ∉ includes) :
    (∃ program, included settings path = .ok program) ∨
      ∃ reason, included settings path = .error reason ∧ Barred settings includes path reason := by
  cases hs : settings.source path with
  | error reason => exact .inr ⟨reason, included_of_error hs, .unreadable hpath hs⟩
  | ok text =>
    rw [included_of_ok hs]
    cases hp : parse text with
    | error e => exact .inr ⟨_, rfl, .malformed hpath hs hp⟩
    | ok program =>
      cases hc : Program.check program with
      | error e => exact .inr ⟨e.fault.message, by simp only [hc], .misplaced hpath hs hp hc⟩
      | ok u => exact .inl ⟨program, by simp only [hc]⟩

/-- An include of such a file raises an exception that says why, whatever it is to be run by. -/
theorem Barred.includeFile {m : Machine} {reason : String}
    (h : Barred settings m.includes path reason) {ev : Evaluator} (hev : ev.settings = settings)
    (env : Nat) (span : Span) :
    includeFile ev env path span m = raise (.includeError path reason) span m := by
  have hget : (MonadState.get : Eval Machine) m = .ok m m := rfl
  have hraise (hpath : path ∉ m.includes) (hincluded : included settings path = .error reason) :
      Syntax.includeFile ev env path span m = raise (.includeError path reason) span m := by
    have hnot : ¬m.includes.contains path = true := by simpa using hpath
    unfold Syntax.includeFile
    rw [bind_of_ok hget, if_neg hnot, hev, hincluded]
  cases h with
  | circular hin =>
    unfold Syntax.includeFile
    rw [bind_of_ok hget, if_pos (List.contains_iff_mem.mpr hin)]
  | unreadable hpath hs => exact hraise hpath (included_of_error hs)
  | malformed hpath hs hp => exact hraise hpath (by rw [included_of_ok hs, hp])
  | misplaced hpath hs hp hc =>
    refine hraise hpath ?_
    rw [included_of_ok hs, hp]
    simp only [hc]

end Syntax

/-- The regime in which both runs are the same and do not end in a defect, as long as inclusions nest
as they may. -/
def nesting (settings : Settings) (base : List String) : Regime where
  Starts _ := True
  Opens path := (settings.source path).isOk = true
  Halts m h n r := agreement.Halts m h n r ∨ ¬settings.Nests base m.includes
  halts_after hlead := Or.imp (agreement.halts_after hlead) fun hnot => hlead.includes ▸ hnot
  halts_bind g := Or.imp_left (agreement.halts_bind g)
  halts_outOfFuel m := .inl (agreement.halts_outOfFuel m)
  halts_raise _ he := .inl (agreement.halts_raise trivial he)
  halts_raiseWith _ hlead hx hh hrun :=
    hh.imp_left fun hh => agreement.halts_raiseWith trivial hlead hx hh hrun
  halts_inCall frame := Or.imp_left (agreement.halts_inCall frame)
  halts_inInclude hpath hread :=
    Or.imp (agreement.halts_inInclude hpath trivial) (mt fun h => h.push hpath hread)

variable {settings : Settings} {base : List String} {homes : Set Nat}

theorem nesting_bounds (limit : Nat) : (nesting settings base).Bounds limit where
  starts _ _ _ := trivial
  overflow _ hlt htrace hcause :=
    .inl ((agreement_bounds limit).overflow trivial hlt htrace hcause)

theorem nesting_letsExit : (nesting settings base).LetsExit :=
  fun m code => .inl (agreement_letsExit m code)

theorem Regime.AbidesWith.eq_of_nests {α : Type} {Q : α → Prop} {x y : Eval α}
    (h : (nesting settings base).AbidesWith homes Q x y) {m : Machine} (hm : m.store.Checked)
    (hnests : settings.Nests base m.includes) :
    x m = y m ∧ (∀ n, y m ≠ .error .defect n) ∧ m.Leads (y.after m) := by
  unfold Eval.after
  cases hx : x m with
  | ok a n =>
    obtain ⟨hy, hwithin, -⟩ := (h m hm trivial).of_ok hx
    rw [hy]
    exact ⟨rfl, nofun, hwithin.leads⟩
  | error halt n =>
    obtain ⟨hwithin, hh⟩ := (h m hm trivial).of_error hx
    obtain ⟨hy, hne⟩ := hh.resolve_right (not_not_intro hnests)
    rw [hy]
    refine ⟨rfl, fun n' hn => hne ?_, hwithin.leads⟩
    injection hn

namespace Evaluator

variable (settings base)

/-- It is a defect of the language if inclusions do not nest as they may. -/
def checkNesting : Eval Unit := do
  if settings.Nests base (← get).includes then return () else defect

/-- The evaluator that checks how inclusions nest as an included file is begun, as a call does its
work and as the code gets or sets an attribute. -/
def vigilant : (fuel : Nat) → Evaluator
  | 0 =>
    { settings
      stray := fun _ => return ()
      watch := fun _ _ _ => checkNesting settings base
      fuel := 0
      call := fun _ _ _ => outOfFuel
      block := fun _ _ => outOfFuel }
  | fuel + 1 =>
    { settings
      stray := fun _ => return ()
      watch := fun _ _ _ => checkNesting settings base
      fuel
      call := fun callee arguments span => calling settings.maxCallDepth callee span (do
        checkNesting settings base
        (vigilant fuel).dispatch callee arguments span)
      block := fun body frame => do
        checkNesting settings base
        Syntax.execAll (vigilant fuel) frame body }

variable {settings base}

/-- If the check fails then what the other run does is not looked at any more. -/
theorem checkNesting_abides {α : Type} {Q : α → Prop} {x y : Eval α}
    (h : (nesting settings base).AbidesWith homes Q x y) :
    (nesting settings base).AbidesWith homes Q (do checkNesting settings base; x) y := by
  intro m hm hs
  by_cases hnests : settings.Nests base m.includes
  · have hpass : checkNesting settings base m = .ok () m := congrFun (if_pos hnests) m
    exact (h m hm hs).after (.refl m) (bind_of_ok hpass) rfl
  · have hfail : checkNesting settings base m = .error .defect m := congrFun (if_neg hnests) m
    exact .ofError (bind_of_error hfail) (.refl m) (.inr hnests)

theorem vigilant_nests (settings : Settings) (base : List String) (fuel : Nat)
    (hglobal : settings.globalAssignment = true → globals ∈ homes) :
    (nesting settings base).Governs homes (vigilant settings base fuel) (ofFuel settings fuel) := by
  have hwatch {homes : Set Nat} (object : Value) (name : String) (sets : Bool) :
      (nesting settings base).Abides homes (checkNesting settings base)
        (unwatched object name sets) := by
    have hpass : (nesting settings base).Abides homes (do checkNesting settings base; return ())
        (return ()) :=
      checkNesting_abides (.done ())
    rwa [bind_pure_unit] at hpass
  unfold ofFuel
  rw [ofFuelWith_eq]
  induction fuel generalizing homes with
  | zero =>
    exact ⟨⟨_, rfl⟩, rfl, rfl, rfl, hwatch, Syntax.readable_of_included, hglobal,
      fun _ _ _ => .outOfFuel, fun _ _ _ _ _ => .outOfFuel⟩
  | succ fuel ih =>
    refine ⟨⟨_, rfl⟩, rfl, rfl, rfl, hwatch, Syntax.readable_of_included, hglobal,
      fun callee arguments span => ?_, fun hsub body frame hframe hc => ?_⟩
    · have hdispatch := dispatch_abides (ih hglobal) callee arguments span fun _ => nesting_letsExit
      exact calling_abides (nesting_bounds _) callee span (checkNesting_abides hdispatch)
    · have hinner := ih fun hset => hsub (hglobal hset)
      have hbody := Syntax.execAll_abides hinner .bare hframe body hc
      exact checkNesting_abides (hbody.weaken fun _ hfits => hfits.eq_normal)

end Evaluator
/-- A file is never included while it is being included. At every point of every run, where an
included file is begun, a call does its work or an attribute is used, no file is being included twice,
so that inclusions nest no deeper than there are files to read: the evaluator for which anything else
is a defect of the language runs every source the same and without one. The same is true of whatever
is done while files are being included: as long as that goes on, through all files, calls and hooks,
they still are, and when it is over, however it ended, no other file is. An include of a file that is
being included, cannot be read, is no program or has a misplaced statement raises an exception, and
nothing is changed by it but that the exception is made, whatever would run the file. Every other
include enters the file. -/
theorem includes_never_reenter {settings : Settings} {session : Session}
    (h : session.Reachable settings) (fuel : Nat) :
    (∀ source,
      let usual := session.runWith (.ofFuel settings fuel) source
      session.runWith (.vigilant settings [] fuel) source = usual ∧
        usual.1 ≠ .error (.halted .defect)) ∧
    (∀ includes, settings.Nests [] includes → includes.Nodup ∧
      ∀ files : Finset String, (∀ path text, settings.source path = .ok text → path ∈ files) →
        includes.length ≤ files.card) ∧
    (∀ m : Machine, session.machine.store.Leads m.store → m.includes.Nodup →
      ∀ deed : Deed, deed.Checked →
        let usual := deed.run (.ofFuel settings fuel)
        deed.run (.vigilant settings m.includes fuel) m = usual m ∧
          (∀ n, usual m ≠ .error .defect n) ∧ (usual.after m).includes = m.includes) ∧
    ∀ ev : Evaluator, ev.settings = settings → ∀ (m : Machine) (env : Nat) (path : String)
      (span : Span),
      (∀ reason, Syntax.Barred settings m.includes path reason →
        let fault : Fault := .includeError path reason
        ∃ e, (Stmt.includeFile path span).exec ev env m =
            .error (.exception e) { m with store := { m.store with
              instances := m.store.instances.push
                ⟨BuiltinClass.includeError.number,
                  Table.ofList [("message", .str fault.message)]⟩ } } ∧
          e.className = "IncludeError" ∧ e.cause = some fault ∧ e.message = fault.message ∧
          e.payload = m.store.instances.size ∧ e.traceback = m.calls) ∧
      ((∀ reason, ¬Syntax.Barred settings m.includes path reason) →
        ∃ program, path ∉ m.includes ∧ included settings path = .ok program ∧
          (Stmt.includeFile path span).exec ev env m =
            (do ev.stray (← inInclude path (ev.block program env)); return .normal : Eval Signal)
              m) := by
  refine ⟨fun source => ?_, fun includes hnests => ⟨hnests.nodup, fun files hfiles => ?_⟩,
    fun m hlead hnodup deed hc => ?_, fun ev hev m env path span => ⟨fun reason hbarred => ?_,
      fun hfree => ?_⟩⟩
  · have hev := Evaluator.vigilant_nests settings [] fuel
      fun _ => Set.mem_univ globals
    have hnests : settings.Nests [] session.machine.includes := by
      rw [h.idle.2]
      exact .refl List.nodup_nil
    have hdefect :=
      (Session.runWith_agrees (Evaluator.ofFuel_alike settings fuel) h.checked source).2.2
    rcases Session.runWith_abides hev (Set.mem_univ globals) h.checked trivial source with
      ⟨hrun, -, -⟩ | ⟨halt, n, r, hrun, hrun', -, hh⟩
    · exact ⟨hrun, hdefect⟩
    · obtain ⟨rfl, -⟩ := hh.resolve_right (not_not_intro hnests)
      exact ⟨hrun.trans hrun'.symm, hdefect⟩
  · exact hnests.length_le_card hfiles
  · have hev := Evaluator.vigilant_nests settings m.includes fuel
      fun _ => Set.mem_univ globals
    obtain ⟨hsame, hne, hleads⟩ :=
      (Deed.run_abides hev hc).eq_of_nests (hlead.checked h.checked) (.refl hnodup)
    exact ⟨hsame, hne, hleads.includes⟩
  · have hraise := hbarred.includeFile hev env span
    exact ⟨_, bind_of_error hraise, rfl, rfl, rfl, rfl, rfl⟩
  · have hpath : path ∉ m.includes := fun hin => hfree _ (.circular hin)
    rcases Syntax.included_cases hpath with ⟨program, hincluded⟩ | ⟨reason, -, hbarred⟩
    · refine ⟨program, hpath, hincluded, ?_⟩
      have hinside : included ev.settings path = .ok program := hev ▸ hincluded
      have hexec : (Stmt.includeFile path span).exec ev env =
          (do Syntax.includeFile ev env path span; return .normal) := rfl
      rw [hexec, Syntax.includeFile_of_ok hinside, bind_assoc]
      exact bind_congr_at (entering_of_notMem hpath span (ev.block program env))
    · exact absurd hbarred (hfree reason)

/-- A file calls a function that includes the file again. There is no other file, so that none can be
included inside of it. -/
theorem includes_never_reenter_function :
    let settings : Settings := ⟨9, false, fun path =>
      if path = "a" then .ok "fun f() \x7b include \"a\" \x7d f()" else .error "no such file", #[]⟩
    let ended := (Session.start settings).runWith (.vigilant settings [] 9) "include \"a\""
    (Failure.exception? ended.1).map (fun e => (e.className, e.message)) =
        some ("IncludeError", "Failed to include a: circular include") ∧
      ended.2.machine.includes = [] ∧
      ∀ includes, settings.Nests [] includes → includes.length ≤ 1 := by
  intro settings ended
  obtain ⟨hruns, hdepth, -, -⟩ := includes_never_reenter (.start : Session.Reachable settings _) 9
  have hended : ended = (Session.start settings).runWith (.ofFuel settings 9) "include \"a\"" :=
    (hruns "include \"a\"").1
  rw [hended]
  have hrun : (Failure.exception? ((Session.start settings).runWith (.ofFuel settings 9)
      "include \"a\"").1).map (fun e => (e.className, e.message)) =
        some ("IncludeError", "Failed to include a: circular include") ∧
      ((Session.start settings).runWith (.ofFuel settings 9) "include \"a\"").2.machine.includes =
        [] := by
    decide +kernel
  refine ⟨hrun.1, hrun.2, fun includes hnests => ?_⟩
  refine (hdepth includes hnests).2 {"a"} fun path text hread => Finset.mem_singleton.mpr ?_
  by_contra hne
  have hnone : settings.source path = .error "no such file" := if_neg hne
  cases hnone.symm.trans hread

end Rill
