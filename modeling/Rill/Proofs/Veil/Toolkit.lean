import Rill.Host.Toolkit
import Rill.Proofs.Veil.Attempts

/-! The functions of the toolkit make up no values. -/
namespace Rill.Host

/-- A result that brings along no values. -/
def Bare (result : Except String HostValue) : Prop := ∀ h, result = .ok h → h.values = []

theorem bare_error (message : String) : Bare (.error message) := nofun

theorem bare_ok {h : HostValue} (hnone : h.values = []) : Bare (.ok h) := by
  rintro _ ⟨⟩
  exact hnone

/-- A function whose results bring along no values. -/
theorem honest_of_bare {f : HostFunction} (h : ∀ arguments s handles,
    Bare (f.run arguments s handles).1) : f.Honest := by
  intro arguments s handles result hresult v hv
  rw [h arguments s handles result hresult] at hv
  cases hv

theorem values_first {arguments : List HostValue} {v : Value} (h : v ∈ (first arguments).values) :
    v ∈ HostValue.valuesOf arguments := by
  cases arguments with
  | nil => cases h
  | cons argument rest => exact List.mem_append_left _ h

theorem bare_sumFrom (s : Store) (total : Int64) (hs : List HostValue) :
    Bare (sumFrom s total hs) := by
  induction hs generalizing total with
  | nil => exact bare_ok rfl
  | cons h rest ih =>
    cases h with
    | int i => exact ih (total + i)
    | _ => exact bare_error _

theorem values_pairs {s : Store} {hs : List HostValue} {entries : List (HostValue × HostValue)}
    (h : pairs s hs = .ok entries) :
    HostValue.valuesOfEntries entries = HostValue.valuesOf hs := by
  induction hs generalizing entries with
  | nil =>
    cases h
    rfl
  | cons pair rest ih =>
    rw [pairs.eq_def] at h
    split at h
    · next heq => cases heq
    · next key value rest' heq =>
      cases heq
      cases hrest : pairs s rest with
      | error message =>
        rw [hrest] at h
        cases h
      | ok entries =>
        rw [hrest] at h
        cases h
        simp [HostValue.valuesOfEntries, HostValue.valuesOf, HostValue.values, ih hrest]
    · cases h

theorem bare_sum (arguments : List HostValue) (s : Store) (handles : Array Int64) :
    Bare (sum arguments s handles).1 := by
  unfold sum
  cases h : first arguments with
  | sequence elements => exact bare_sumFrom s 0 elements
  | _ => exact bare_error _

theorem honest_mappingOf {name : String} {arity : Arity} :
    HostFunction.Honest ⟨name, arity, mappingOf⟩ := by
  intro arguments s handles result hresult v hv
  left
  apply values_first
  cases h : first arguments with
  | sequence elements =>
    simp only [mappingOf, h] at hresult
    have hpairs : (pairs s elements).map HostValue.mapping = .ok result := hresult
    cases hentries : pairs s elements with
    | error message =>
      rw [hentries] at hpairs
      cases hpairs
    | ok entries =>
      rw [hentries] at hpairs
      cases hpairs
      have hmem : v ∈ HostValue.valuesOfEntries entries := hv
      rw [values_pairs hentries] at hmem
      exact hmem
  | _ =>
    simp only [mappingOf, h] at hresult
    cases hresult

theorem bare_fail (arguments : List HostValue) (s : Store) (handles : Array Int64) :
    Bare (fail arguments s handles).1 := by
  unfold fail
  cases h : first arguments with
  | _ => exact bare_error _

theorem honest_makeHandle {name : String} {arity : Arity} :
    HostFunction.Honest ⟨name, arity, makeHandle⟩ := by
  intro arguments s handles result hresult v hv
  right
  cases h : first arguments with
  | int i =>
    simp only [makeHandle, h] at hresult
    cases hresult
    exact ⟨_, List.mem_singleton.mp hv⟩
  | _ =>
    simp only [makeHandle, h] at hresult
    cases hresult

theorem bare_readHandle (arguments : List HostValue) (s : Store) (handles : Array Int64) :
    Bare (readHandle arguments s handles).1 := by
  unfold readHandle
  cases h : first arguments with
  | opaqueValue v =>
    cases v with
    | opaqueRef id => exact bare_ok rfl
    | _ => exact bare_error _
  | _ => exact bare_error _

theorem honest_toolkit : ∀ f ∈ toolkit, f.Honest := by
  intro f hf
  simp only [toolkit, List.mem_cons, List.not_mem_nil, or_false] at hf
  rcases hf with rfl | rfl | rfl | rfl | rfl | rfl | rfl | rfl | rfl | rfl
  · exact honest_of_bare bare_sum
  · intro arguments s handles result hresult v hv
    cases hresult
    exact .inl (values_first hv)
  · intro arguments s handles result hresult v hv
    cases hresult
    exact .inl hv
  · exact honest_of_bare fun _ _ _ => bare_ok rfl
  · exact honest_of_bare fun _ _ _ => bare_ok rfl
  · exact honest_of_bare fun _ _ _ => bare_ok rfl
  · exact honest_mappingOf
  · exact honest_of_bare bare_fail
  · exact honest_makeHandle
  · exact honest_of_bare bare_readHandle

end Rill.Host
