import Rill.Proofs.Renumbering.Attempts

/-! Machines of which one has a function more, and computations that do not see it. -/
namespace Rill

open Text (Span)

/-- The store of the other machine has one function more, at `n`. All else is the same. -/
structure Machine.Renumbered (n : Nat) (m m' : Machine) : Prop where
  store : m.store.Renumbered n m'.store
  output : m'.output = m.output
  calls : m'.calls = m.calls
  includes : m'.includes = m.includes

/-- How many functions were made. -/
def Machine.made (m : Machine) : Nat := m.store.functions.size

namespace Renumbering

/-- On machines of which one has a function more, both computations give the same, or end early in
the same way. -/
abbrev Runs {α : Type} [Carries α] (n k : Nat) (x y : Eval α) : Prop :=
  Renumbers (Machine.Renumbered n) Machine.made n k x y

namespace Runs

variable {n k : Nat} {α β : Type} [Carries α] [Carries β] {x y : Eval α}

theorem bind {f g : α → Eval β} (hx : Runs n k x y)
    (hf : ∀ j a, k ≤ j → Below j a → Runs n j (f a) (g (renumber n a))) :
    Runs n k (x >>= f) (y >>= g) :=
  Renumbers.bind hx hf

theorem andThen {γ : Type} {x y : Eval γ} {f g : γ → Eval β} (hx : @Runs γ (.plain γ) n k x y)
    (hf : ∀ j c, k ≤ j → Runs n j (f c) (g c)) : Runs n k (x >>= f) (y >>= g) :=
  Renumbers.andThen hx hf

theorem mapM {γ δ : Type} {f : γ → Eval α} {g : δ → Eval α} {φ : γ → δ} {as : List γ}
    (h : ∀ j, ∀ a ∈ as, k ≤ j → Runs n j (f a) (g (φ a))) :
    Runs n k (as.mapM f) ((as.map φ).mapM g) :=
  Renumbers.mapM h

theorem get {f g : Machine → Eval α}
    (h : ∀ m m', m.Renumbered n m' → k ≤ m.made → Runs n m.made (f m) (g m')) :
    Runs n k (get >>= f) (get >>= g) :=
  fun m m' hm hk => (h m m' hm hk m m' hm le_rfl).weaken hk

theorem store {f g : Store → Eval α}
    (h : ∀ s t, s.Renumbered n t → k ≤ s.functions.size → Runs n s.functions.size (f s) (g t)) :
    Runs n k (Eval.store >>= f) (Eval.store >>= g) :=
  fun m m' hm hk => (h m.store m'.store hm.store hk m m' hm le_rfl).weaken hk

/-- A result that is read off the store. -/
theorem pureOf {f g : Store → α}
    (h : ∀ s t, s.Renumbered n t → g t = renumber n (f s) ∧ Below s.functions.size (f s)) :
    Runs n k (do return f (← Eval.store)) (do return g (← Eval.store)) :=
  store fun s t hst _ => .pure (h s t hst).1 (h s t hst).2

theorem action {x y : Store.Action α} (h : Acts n k x y) : Runs n k (liftM x) (liftM y) := by
  intro m m' hm hk
  obtain ⟨hvalue, hbelow, hstore, hle⟩ := h m.store m'.store hm.store hk
  exact .ok hvalue hbelow ⟨hstore, hm.output, hm.calls, hm.includes⟩ hle

theorem outOfFuel : Runs (α := α) n k Eval.outOfFuel Eval.outOfFuel := Renumbers.throw _

theorem defect : Runs (α := α) n k Eval.defect Eval.defect := Renumbers.throw _

theorem print (line : String) : Runs n k (Eval.print line) (Eval.print line) := by
  intro m m' hm hk
  have houtput : m'.output ++ line ++ "\n" = m.output ++ line ++ "\n" := by rw [hm.output]
  exact .ok rfl trivial ⟨hm.store, houtput, hm.calls, hm.includes⟩ hk

/-- An exception tells nothing of functions but the names of those that are called. -/
theorem raise (fault : Fault) (span : Span) :
    Runs (α := α) n k (Eval.raise fault span) (Eval.raise fault span) := by
  have hfields : Below k (Table.ofList [("message", Value.str fault.message)]) := by
    apply Table.All.ofList
    simp [Below, Value.Below]
  have hinstance := acts_newInstance (n := n) fault.type.number hfields
  rw [Table.ofList_renumber] at hinstance
  refine andThen (action hinstance) fun _ payload _ => get fun m m' hm _ => ?_
  rw [hm.calls]
  exact Renumbers.throw _

theorem invalid (message : String) (span : Span) :
    Runs (α := α) n k (Eval.invalid message span) (Eval.invalid message span) :=
  raise _ span

/-- A failure that tells something of the store. -/
theorem raiseOf {f g : Store → Fault} (h : ∀ s t, s.Renumbered n t → g t = f s) (span : Span) :
    Runs (α := α) n k (do Eval.raise (f (← Eval.store)) span)
      (do Eval.raise (g (← Eval.store)) span) := by
  refine store fun s t hst _ => ?_
  rw [h s t hst]
  exact raise _ span

/-- A message that tells something of the store. -/
theorem invalidOf {f g : Store → String} (h : ∀ s t, s.Renumbered n t → g t = f s) (span : Span) :
    Runs (α := α) n k (do Eval.invalid (f (← Eval.store)) span)
      (do Eval.invalid (g (← Eval.store)) span) :=
  raiseOf (fun s t hst => congrArg Fault.invalidArgument (h s t hst)) span

theorem attempt {x y : Store.Attempt α} (h : Tries n k x y) (span : Span) :
    Runs n k (Eval.attempt x span) (Eval.attempt y span) := by
  rintro ⟨s, output, calls, includes⟩ ⟨t, output', calls', includes'⟩ hm hk
  have htried := h s t hm.store hk
  unfold Eval.attempt
  dsimp only
  generalize x s = r at htried
  generalize y t = r' at htried
  cases htried with
  | ok hb ha hst hle => exact .ok hb ha ⟨hst, hm.output, hm.calls, hm.includes⟩ hle
  | @error trouble s t hst hle =>
    have hafter : Machine.Renumbered n ⟨s, output, calls, includes⟩
        ⟨t, output', calls', includes'⟩ :=
      ⟨hst, hm.output, hm.calls, hm.includes⟩
    cases trouble with
    | fault fault => exact raise fault span _ _ hafter hle
    | defect => exact defect _ _ hafter hle

theorem inCall (frame : CallFrame) (h : Runs n k x y) :
    Runs n k (Eval.inCall frame x) (Eval.inCall frame y) := by
  rintro ⟨s, output, calls, includes⟩ ⟨t, output', calls', includes'⟩ hm hk
  have hcalls : calls'.push frame = calls.push frame := congrArg (Array.push · frame) hm.calls
  have hbody := h ⟨s, output, calls.push frame, includes⟩ ⟨t, output', calls'.push frame, includes'⟩
    ⟨hm.store, hm.output, hcalls, hm.includes⟩ hk
  unfold Eval.inCall
  dsimp only
  generalize x ⟨s, output, calls.push frame, includes⟩ = r at hbody
  generalize y ⟨t, output', calls'.push frame, includes'⟩ = r' at hbody
  cases hbody with
  | ok hb ha hafter hle =>
    have hpop := congrArg Array.pop hafter.calls
    exact .ok hb ha ⟨hafter.store, hafter.output, hpop, hafter.includes⟩ hle
  | error hafter hle =>
    have hpop := congrArg Array.pop hafter.calls
    exact .error ⟨hafter.store, hafter.output, hpop, hafter.includes⟩ hle

theorem inInclude (path : String) (h : Runs n k x y) :
    Runs n k (Eval.inInclude path x) (Eval.inInclude path y) := by
  rintro ⟨s, output, calls, includes⟩ ⟨t, output', calls', includes'⟩ hm hk
  have hpath : path :: includes' = path :: includes := congrArg (path :: ·) hm.includes
  have hbody := h ⟨s, output, calls, path :: includes⟩ ⟨t, output', calls', path :: includes'⟩
    ⟨hm.store, hm.output, hm.calls, hpath⟩ hk
  unfold Eval.inInclude
  dsimp only
  generalize x ⟨s, output, calls, path :: includes⟩ = r at hbody
  generalize y ⟨t, output', calls', path :: includes'⟩ = r' at hbody
  cases hbody with
  | ok hb ha hafter hle =>
    have htail := congrArg List.tail hafter.includes
    exact .ok hb ha ⟨hafter.store, hafter.output, hafter.calls, htail⟩ hle
  | error hafter hle =>
    have htail := congrArg List.tail hafter.includes
    exact .error ⟨hafter.store, hafter.output, hafter.calls, htail⟩ hle

end Runs
end Renumbering
end Rill
