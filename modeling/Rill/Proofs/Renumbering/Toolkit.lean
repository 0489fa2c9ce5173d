import Rill.Host.Toolkit
import Rill.Proofs.Renumbering.Operations

/-! The functions of the toolkit do not see that there is a function more. -/
namespace Rill

variable {n : Nat} {s t : Store}

namespace HostValue

mutual

theorem outline_renumbered (hst : s.Renumbered n t) :
    (h : HostValue) → (h.renumbered n).outline t = h.outline s
  | .none | .bool _ | .int _ | .float _ | .string _ => rfl
  | .sequence elements => by rw [renumbered, outline, outline, outlines_renumbered hst elements]
  | .mapping entries => by rw [renumbered, outline, outline, entryOutlines_renumbered hst entries]
  | .opaqueValue v => by rw [renumbered, outline, outline, hst.repr]

theorem outlines_renumbered (hst : s.Renumbered n t) :
    (hs : List HostValue) → outlines t (renumberedAll n hs) = outlines s hs
  | [] => rfl
  | h :: hs => by
    rw [renumberedAll, outlines, outlines, outline_renumbered hst h, outlines_renumbered hst hs]

theorem entryOutlines_renumbered (hst : s.Renumbered n t) :
    (hs : List (HostValue × HostValue)) →
      entryOutlines t (renumberedEntries n hs) = entryOutlines s hs
  | [] => rfl
  | (k, h) :: hs => by
    rw [renumberedEntries, entryOutlines, entryOutlines, outline_renumbered hst k,
      outline_renumbered hst h, entryOutlines_renumbered hst hs]

end

theorem debug_renumber (hst : s.Renumbered n t) (h : HostValue) :
    (renumber n h).debug t = h.debug s :=
  congrArg Outline.compact (outline_renumbered hst h)

end HostValue

namespace Host

theorem first_renumber (arguments : List HostValue) :
    first (renumber n arguments) = renumber n (first arguments) := by
  unfold first
  rw [renumber_head?]
  cases arguments.head? <;> rfl

theorem sumFrom_renumber (hst : s.Renumbered n t) (total : Int64) (hs : List HostValue) :
    sumFrom t total (renumber n hs) = renumber n (sumFrom s total hs) := by
  have hrefuse (h : HostValue) :
      Except.error (α := HostValue) ("Can't add " ++ (renumber n h).debug t ++ ".") =
        renumber n (Except.error ("Can't add " ++ h.debug s ++ ".")) := by
    rw [HostValue.debug_renumber hst]
    rfl
  induction hs generalizing total with
  | nil => rfl
  | cons h rest ih =>
    cases h with
    | int i => exact ih (total + i)
    | _ => exact hrefuse _

theorem pairs_renumber (hst : s.Renumbered n t) (hs : List HostValue) :
    pairs t (renumber n hs) = renumber n (pairs s hs) := by
  have hrefuse (h : HostValue) :
      Except.error (α := List (HostValue × HostValue)) ("Not a pair: " ++ (renumber n h).debug t) =
        renumber n (Except.error ("Not a pair: " ++ h.debug s)) := by
    rw [HostValue.debug_renumber hst]
    rfl
  induction hs with
  | nil => rfl
  | cons h rest ih =>
    cases h with
    | sequence elements =>
      match elements with
      | [key, value] =>
        change (do
          let entries ← pairs t (renumber n rest)
          return (renumber n key, renumber n value) :: entries) = _
        rw [ih, pairs]
        cases pairs s rest <;> rfl
      | [] => exact hrefuse (.sequence [])
      | [v] => exact hrefuse (.sequence [v])
      | v :: w :: u :: more => exact hrefuse (.sequence (v :: w :: u :: more))
    | _ => exact hrefuse _

section

variable {name : String} {arity : Arity}

/-- A function that does not look at the store, and keeps nothing. -/
theorem oblivious_pure {f : List HostValue → Except String HostValue}
    (h : ∀ n arguments, f (renumber n arguments) = renumber n (f arguments)) :
    HostFunction.Oblivious ⟨name, arity, fun arguments => return f arguments⟩ :=
  fun n _ _ _ arguments _ handles => congrArg (·, handles) (h n arguments)

theorem oblivious_sum : HostFunction.Oblivious ⟨name, arity, sum⟩ := by
  intro n s t hst arguments _ handles
  have hrefuse (h : HostValue) :
      Except.error (α := HostValue)
          ("Expected a sequence but got " ++ (renumber n h).debug t ++ ".") =
        renumber n (Except.error ("Expected a sequence but got " ++ h.debug s ++ ".")) := by
    rw [HostValue.debug_renumber hst]
    rfl
  dsimp only [sum]
  rw [first_renumber]
  cases first arguments with
  | sequence elements =>
    have hsum := sumFrom_renumber hst 0 elements
    rw [← HostValue.renumberedAll_eq] at hsum
    exact congrArg (·, handles) hsum
  | _ => exact congrArg (·, handles) (hrefuse _)

theorem oblivious_debug : HostFunction.Oblivious ⟨name, arity, fun arguments => do
    return .ok (.string ((first arguments).debug (← read)))⟩ := by
  intro n s t hst arguments _ handles
  have hdebug : (first (renumber n arguments)).debug t = (first arguments).debug s := by
    rw [first_renumber, HostValue.debug_renumber hst]
  exact congrArg (fun text => (Except.ok (HostValue.string text), handles)) hdebug

theorem oblivious_mappingOf : HostFunction.Oblivious ⟨name, arity, mappingOf⟩ := by
  intro n s t hst arguments _ handles
  dsimp only [mappingOf]
  rw [first_renumber]
  cases first arguments with
  | sequence elements =>
    have hpairs := pairs_renumber hst elements
    rw [← HostValue.renumberedAll_eq] at hpairs
    change ((pairs t (HostValue.renumberedAll n elements)).map HostValue.mapping, handles) =
      (renumber n ((pairs s elements).map HostValue.mapping), handles)
    rw [hpairs]
    cases pairs s elements with
    | error message => rfl
    | ok entries =>
      have hmapping : HostValue.mapping (renumber n entries) = renumber n (.mapping entries) :=
        congrArg HostValue.mapping (HostValue.renumberedEntries_eq entries).symm
      exact congrArg (fun h => (Except.ok h, handles)) hmapping
  | _ => rfl

theorem oblivious_fail : HostFunction.Oblivious ⟨name, arity, fail⟩ := by
  intro n s t hst arguments _ handles
  dsimp only [fail]
  rw [first_renumber]
  cases first arguments <;> rfl

theorem oblivious_makeHandle : HostFunction.Oblivious ⟨name, arity, makeHandle⟩ := by
  intro n s t hst arguments _ handles
  dsimp only [makeHandle]
  rw [first_renumber]
  cases first arguments <;> rfl

theorem oblivious_readHandle : HostFunction.Oblivious ⟨name, arity, readHandle⟩ := by
  intro n s t hst arguments _ handles
  have hrefuse (h : HostValue) :
      Except.error (α := HostValue)
          ("Expected a handle but got " ++ (renumber n h).debug t ++ ".") =
        renumber n (Except.error ("Expected a handle but got " ++ h.debug s ++ ".")) := by
    rw [HostValue.debug_renumber hst]
    rfl
  dsimp only [readHandle]
  rw [first_renumber]
  cases first arguments with
  | opaqueValue v =>
    cases v with
    | opaqueRef id =>
      have hhandle : t.handles[id]?.getD 0 = s.handles[id]?.getD 0 := by rw [hst.handles]
      exact congrArg (fun i => (Except.ok (HostValue.int i), handles)) hhandle
    | _ => rfl
  | _ => exact congrArg (·, handles) (hrefuse _)

end

theorem oblivious_toolkit : ∀ f ∈ toolkit, f.Oblivious := by
  intro f hf
  simp only [toolkit, List.mem_cons, List.not_mem_nil, or_false] at hf
  rcases hf with rfl | rfl | rfl | rfl | rfl | rfl | rfl | rfl | rfl | rfl
  · exact oblivious_sum
  · exact oblivious_pure fun n arguments => congrArg Except.ok (first_renumber arguments)
  · refine oblivious_pure fun n arguments => ?_
    have hall := (HostValue.renumberedAll_eq (n := n) arguments).symm
    exact congrArg (fun elements => Except.ok (HostValue.sequence elements)) hall
  · refine oblivious_pure fun n arguments => ?_
    rw [renumber_length]
    rfl
  · exact oblivious_debug
  · exact oblivious_pure fun _ _ => rfl
  · exact oblivious_mappingOf
  · exact oblivious_fail
  · exact oblivious_makeHandle
  · exact oblivious_readHandle

end Host
end Rill
