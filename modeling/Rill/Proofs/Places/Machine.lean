import Rill.Proofs.Places.Attempts

/-! Machines that differ only in places, and computations that do not see them. -/
namespace Rill

open Text (Span)

/-- The call without its place. -/
def CallFrame.bare (f : CallFrame) : CallFrame := { f with span := default }

/-- The exception without its place and those of the calls around it. -/
def Exception.bare (e : Exception) : Exception :=
  { e with span := default, traceback := e.traceback.map CallFrame.bare }

namespace Halt

def bare : Halt → Halt
  | .exception e => .exception e.bare
  | h => h

/-- The same end up to places. -/
def Like (h k : Halt) : Prop := h.bare = k.bare

theorem Like.equivalence : Equivalence Like := ⟨fun _ => rfl, Eq.symm, Eq.trans⟩

end Halt

namespace Machine

/-- The same machine up to places. -/
structure Like (m n : Machine) : Prop where
  store : m.store.Like n.store
  output : m.output = n.output
  calls : m.calls.map CallFrame.bare = n.calls.map CallFrame.bare
  includes : m.includes = n.includes

theorem Like.equivalence : Equivalence Like where
  refl _ := ⟨rfl, rfl, rfl, rfl⟩
  symm h := ⟨h.store.symm, h.output.symm, h.calls.symm, h.includes.symm⟩
  trans h k := ⟨h.store.trans k.store, h.output.trans k.output, h.calls.trans k.calls,
    h.includes.trans k.includes⟩

theorem Like.depth {m n : Machine} (h : m.Like n) : m.calls.size = n.calls.size := by
  simpa using congrArg Array.size h.calls

end Machine

namespace Eval

variable {α β : Type}

/-- From like machines, both computations give the same or end alike, and leave like machines. -/
abbrev RunsAlike (x y : Eval α) : Prop := Mirrors Machine.Like Halt.Like Eq x y

namespace RunsAlike

variable {x y z : Eval α}

theorem symm (h : RunsAlike x y) : RunsAlike y x := fun m n hmn =>
  (h n m (Machine.Like.equivalence.symm hmn)).symm Machine.Like.equivalence Halt.Like.equivalence

theorem trans (h : RunsAlike x y) (h' : RunsAlike y z) : RunsAlike x z := fun m n hmn =>
  (h m m (Machine.Like.equivalence.refl m)).trans (h' m n hmn) Machine.Like.equivalence
    Halt.Like.equivalence

theorem pure (a : α) : RunsAlike (Pure.pure a) (Pure.pure a) := Mirrors.pure rfl

theorem bind {f g : α → Eval β} (hx : RunsAlike x y) (hf : ∀ a, RunsAlike (f a) (g a)) :
    RunsAlike (x >>= f) (y >>= g) := by
  apply Mirrors.bind hx
  rintro a _ rfl
  exact hf a

theorem get {f g : Machine → Eval α} (h : ∀ m n, m.Like n → RunsAlike (f m) (g n)) :
    RunsAlike (get >>= f) (get >>= g) :=
  Mirrors.bind .get h

theorem store {f g : Store → Eval α} (h : ∀ s t, s.Like t → RunsAlike (f s) (g t)) :
    RunsAlike (store >>= f) (store >>= g) := by
  have hstore : Mirrors Machine.Like Halt.Like Store.Like Eval.store Eval.store :=
    fun m n hmn => .ok hmn.store hmn
  exact hstore.bind h

/-- A result that is read off the store. -/
theorem pureOf {f : Store → α} (hf : ∀ s t, s.Like t → f s = f t) :
    RunsAlike (do return f (← Eval.store)) (do return f (← Eval.store)) := by
  apply store
  intro s t hst
  rw [hf s t hst]
  exact pure _

theorem action {x y : Store.Action α} (h : Store.ActsAlike x y) :
    RunsAlike (liftM x) (liftM y) := by
  intro m n hmn
  obtain ⟨hvalue, hstore⟩ := h m.store n.store hmn.store
  exact .ok hvalue ⟨hstore, hmn.output, hmn.calls, hmn.includes⟩

theorem outOfFuel : RunsAlike (α := α) outOfFuel outOfFuel := Mirrors.throw rfl

theorem defect : RunsAlike (α := α) defect defect := Mirrors.throw rfl

theorem print (line : String) : RunsAlike (print line) (print line) := by
  intro m n hmn
  have houtput : m.output ++ line ++ "\n" = n.output ++ line ++ "\n" := by rw [hmn.output]
  exact .ok rfl ⟨hmn.store, houtput, hmn.calls, hmn.includes⟩

/-- Exceptions that differ in their places only. -/
theorem exception {e f : Exception} (h : e.bare = f.bare) :
    RunsAlike (α := α) (throw (.exception e)) (throw (.exception f)) :=
  Mirrors.throw (congrArg Halt.exception h)

theorem raise (fault : Fault) (span span' : Span) :
    RunsAlike (α := α) (raise fault span) (raise fault span') := by
  apply bind (action (Store.alike_newInstance _ _))
  intro payload
  apply get
  intro m n hmn
  apply exception
  simp only [Exception.bare, hmn.calls]

theorem invalid (message : String) (span span' : Span) :
    RunsAlike (α := α) (invalid message span) (invalid message span') :=
  raise _ span span'

/-- A failure that tells something of the store. -/
theorem raiseOf {f : Store → Fault} (hf : ∀ s t, s.Like t → f s = f t) (span span' : Span) :
    RunsAlike (α := α) (do Eval.raise (f (← Eval.store)) span)
      (do Eval.raise (f (← Eval.store)) span') := by
  apply store
  intro s t hst
  rw [hf s t hst]
  exact raise _ span span'

/-- A message that tells something of the store. -/
theorem invalidOf {f : Store → String} (hf : ∀ s t, s.Like t → f s = f t) (span span' : Span) :
    RunsAlike (α := α) (do Eval.invalid (f (← Eval.store)) span)
      (do Eval.invalid (f (← Eval.store)) span') :=
  raiseOf (fun s t hst => congrArg Fault.invalidArgument (hf s t hst)) span span'

theorem attempt {x : Store.Attempt α} (h : Store.TriesAlike x) (span span' : Span) :
    RunsAlike (attempt x span) (attempt x span') := by
  rintro ⟨store, output, calls, includes⟩ ⟨store', output', calls', includes'⟩ hmn
  have htried := h store store' hmn.store
  unfold Eval.attempt
  dsimp only
  generalize x store = r at htried
  generalize x store' = r' at htried
  cases htried with
  | ok hvalue hstore => exact .ok hvalue ⟨hstore, hmn.output, hmn.calls, hmn.includes⟩
  | @error trouble _ s t he hstore =>
    subst he
    have hlike : Machine.Like ⟨s, output, calls, includes⟩ ⟨t, output', calls', includes'⟩ :=
      ⟨hstore, hmn.output, hmn.calls, hmn.includes⟩
    cases trouble with
    | fault fault => exact raise fault span span' _ _ hlike
    | defect => exact defect _ _ hlike

theorem inCall {frame frame' : CallFrame} (hframe : frame.bare = frame'.bare)
    (h : RunsAlike x y) : RunsAlike (inCall frame x) (inCall frame' y) := by
  rintro ⟨store, output, calls, includes⟩ ⟨store', output', calls', includes'⟩ hmn
  have hcalls : (calls.push frame).map CallFrame.bare =
      (calls'.push frame').map CallFrame.bare := by
    rw [Array.map_push, Array.map_push, hmn.calls, hframe]
  have hpop {p q : Machine} (hpq : p.Like q) :
      p.calls.pop.map CallFrame.bare = q.calls.pop.map CallFrame.bare := by
    rw [Array.map_pop, Array.map_pop, hpq.calls]
  have hbody := h ⟨store, output, calls.push frame, includes⟩
    ⟨store', output', calls'.push frame', includes'⟩
    ⟨hmn.store, hmn.output, hcalls, hmn.includes⟩
  unfold Eval.inCall
  dsimp only
  generalize x ⟨store, output, calls.push frame, includes⟩ = r at hbody
  generalize y ⟨store', output', calls'.push frame', includes'⟩ = r' at hbody
  cases hbody with
  | ok hvalue hlike => exact .ok hvalue ⟨hlike.store, hlike.output, hpop hlike, hlike.includes⟩
  | error he hlike => exact .error he ⟨hlike.store, hlike.output, hpop hlike, hlike.includes⟩

theorem inInclude (path : String) (h : RunsAlike x y) :
    RunsAlike (inInclude path x) (inInclude path y) := by
  rintro ⟨store, output, calls, includes⟩ ⟨store', output', calls', includes'⟩ hmn
  have hincludes : path :: includes = path :: includes' := congrArg (path :: ·) hmn.includes
  have htail {p q : Machine} (hpq : p.Like q) : p.includes.tail = q.includes.tail := by
    rw [hpq.includes]
  have hbody := h ⟨store, output, calls, path :: includes⟩
    ⟨store', output', calls', path :: includes'⟩
    ⟨hmn.store, hmn.output, hmn.calls, hincludes⟩
  unfold Eval.inInclude
  dsimp only
  generalize x ⟨store, output, calls, path :: includes⟩ = r at hbody
  generalize y ⟨store', output', calls', path :: includes'⟩ = r' at hbody
  cases hbody with
  | ok hvalue hlike => exact .ok hvalue ⟨hlike.store, hlike.output, hlike.calls, htail hlike⟩
  | error he hlike => exact .error he ⟨hlike.store, hlike.output, hlike.calls, htail hlike⟩

end RunsAlike
end Eval
end Rill
