import Rill.Host.Toolkit
import Rill.Proofs.Places.Operations

/-! The functions of the toolkit see nothing of places. -/
namespace Rill

namespace HostValue

mutual

theorem outline_bare (s : Store) : (h : HostValue) → h.outline s.bare = h.outline s
  | .none | .bool _ | .int _ | .float _ | .string _ => rfl
  | .sequence elements => by rw [outline, outline, outlines_bare s elements]
  | .mapping entries => by rw [outline, outline, entryOutlines_bare s entries]
  | .opaqueValue v => by rw [outline, outline, Store.repr_bare]

theorem outlines_bare (s : Store) : (hs : List HostValue) → outlines s.bare hs = outlines s hs
  | [] => rfl
  | h :: hs => by rw [outlines, outlines, outline_bare s h, outlines_bare s hs]

theorem entryOutlines_bare (s : Store) :
    (hs : List (HostValue × HostValue)) → entryOutlines s.bare hs = entryOutlines s hs
  | [] => rfl
  | (k, h) :: hs => by
    rw [entryOutlines, entryOutlines, outline_bare s k, outline_bare s h, entryOutlines_bare s hs]

end

theorem debug_bare (s : Store) (h : HostValue) : h.debug s.bare = h.debug s := by
  rw [debug, debug, outline_bare]

end HostValue

namespace HostAction

variable {α : Type}

theorem Blind.pure (a : α) : HostAction.Blind (Pure.pure a) := fun _ _ => rfl

/-- An action that looks at the store first. -/
theorem Blind.read {f : Store → HostAction α} (hf : ∀ s : Store, f s.bare = f s)
    (h : ∀ s, (f s).Blind) : HostAction.Blind (read >>= f) := by
  intro s handles
  change f s.bare s.bare handles = f s s handles
  rw [hf, h s s handles]

end HostAction

namespace Host

theorem sumFrom_bare (s : Store) (total : Int64) (hs : List HostValue) :
    sumFrom s.bare total hs = sumFrom s total hs := by
  fun_induction sumFrom s total hs with
  | case1 total => rfl
  | case2 total i rest ih => exact ih
  | case3 total other rest hother =>
    rw [sumFrom, HostValue.debug_bare]
    exact hother

theorem pairs_bare (s : Store) (hs : List HostValue) : pairs s.bare hs = pairs s hs := by
  fun_induction pairs s hs with
  | case1 => rfl
  | case2 key value rest ih => rw [pairs, ih]
  | case3 other rest hother =>
    rw [pairs, HostValue.debug_bare]
    exact hother

theorem blind_sum (arguments : List HostValue) : (sum arguments).Blind := by
  apply HostAction.Blind.read
  · intro s
    split
    · rw [sumFrom_bare]
    · rw [HostValue.debug_bare]
  · intro s
    split <;> exact .pure _

theorem blind_mappingOf (arguments : List HostValue) : (mappingOf arguments).Blind := by
  unfold mappingOf
  split
  · apply HostAction.Blind.read
    · intro s
      rw [pairs_bare]
    · intro s
      exact .pure _
  · exact .pure _

theorem blind_readHandle (arguments : List HostValue) : (readHandle arguments).Blind := by
  apply HostAction.Blind.read
  · intro s
    have hhandles : s.bare.handles = s.handles := rfl
    rw [hhandles]
    split
    · rfl
    · rfl
    · rw [HostValue.debug_bare]
  · intro s
    split <;> exact .pure _

theorem blind_debug (arguments : List HostValue) : HostAction.Blind (do
    return Except.ok (ε := String) (HostValue.string ((first arguments).debug (← read)))) := by
  apply HostAction.Blind.read
  · intro s
    rw [HostValue.debug_bare]
  · intro s
    exact .pure _

theorem blind_fail (arguments : List HostValue) : (fail arguments).Blind := by
  unfold fail
  split <;> exact .pure _

theorem blind_makeHandle (arguments : List HostValue) : (makeHandle arguments).Blind := by
  unfold makeHandle
  split
  · exact fun _ _ => rfl
  · exact .pure _

theorem blind_toolkit : ∀ f ∈ toolkit, f.Blind := by
  intro f hf
  simp only [toolkit, List.mem_cons, List.not_mem_nil, or_false] at hf
  rcases hf with rfl | rfl | rfl | rfl | rfl | rfl | rfl | rfl | rfl | rfl
  · exact blind_sum
  · exact fun _ => .pure _
  · exact fun _ => .pure _
  · exact fun _ => .pure _
  · exact blind_debug
  · exact fun _ => .pure _
  · exact blind_mappingOf
  · exact blind_fail
  · exact blind_makeHandle
  · exact blind_readHandle

end Host
end Rill
