import Mathlib.Data.Set.Insert
import Rill.Proofs.Keys
import Rill.Proofs.Steps

/-! Which frames get new variables, and what happens to the others. -/
namespace Rill

/-- A frame has become another by new variables only. -/
structure Frame.Grows (f g : Frame) : Prop where
  parent : g.parent = f.parent
  isNamespace : g.isNamespace = f.isNamespace
  names : ∀ name cell, f.names.get? name = some cell → g.names.get? name = some cell

namespace Frame.Grows

theorem refl (f : Frame) : f.Grows f := ⟨rfl, rfl, fun _ _ h => h⟩

theorem trans {f g h : Frame} (hfg : f.Grows g) (hgh : g.Grows h) : f.Grows h where
  parent := hgh.parent.trans hfg.parent
  isNamespace := hgh.isNamespace.trans hfg.isNamespace
  names name cell hc := hgh.names name cell (hfg.names name cell hc)

theorem put {f : Frame} {name : String} (h : f.names.get? name = none) (cell : Nat) :
    f.Grows { f with names := f.names.put name cell } := by
  refine ⟨rfl, rfl, fun name' cell' hc => ?_⟩
  change (f.names.put name cell).get? name' = some cell'
  rw [Table.put_of_get?_eq_none h, Table.get?_push, hc]
  rfl

end Frame.Grows

namespace Store

theorem frame_of_getElem? {s : Store} {id : Nat} {f : Frame} (h : s.frames[id]? = some f) :
    s.frame id = f := by
  rw [frame, h]
  rfl

theorem getElem?_push_of_some {α : Type} {xs : Array α} {i : Nat} {x : α} (h : xs[i]? = some x)
    (y : α) : (xs.push y)[i]? = some x := by
  have hlt : i < xs.size := (Array.getElem?_eq_some_iff.mp h).1
  rw [Array.getElem?_push, if_neg (Nat.ne_of_lt hlt), h]

theorem get_bind {α : Type} (f : Store → Action α) (s : Store) : (get >>= f) s = f s s := rfl

/-- Binding a name that the frame has writes its variable. -/
theorem bind_of_some {s : Store} {id cell : Nat} {name : String}
    (h : (s.frame id).names.get? name = some cell) (v : Value) :
    bind id name v s = ((), { s with cells := s.cells.setIfInBounds cell v }) := by
  unfold bind
  rw [get_bind, h]
  rfl

/-- Binding a name that the frame lacks makes a variable. -/
theorem bind_of_none {s : Store} {id : Nat} {name : String}
    (h : (s.frame id).names.get? name = none) (v : Value) :
    bind id name v s = ((), { s with
      cells := s.cells.push v
      frames := s.frames.modify id fun f =>
        { f with names := f.names.put name s.cells.size } }) := by
  unfold bind
  rw [get_bind, h]
  rfl

/-- From one store to another, every frame stays as it is, but for those of `homes`, which may get
new variables. -/
def Confined (homes : Set Nat) (s t : Store) : Prop :=
  ∀ id f, s.frames[id]? = some f →
    ∃ g, t.frames[id]? = some g ∧ (g = f ∨ id ∈ homes ∧ f.Grows g)

namespace Confined

variable {homes : Set Nat} {s t u : Store}

theorem ofFrames (h : t.frames = s.frames) : s.Confined homes t :=
  fun _ f hf => ⟨f, h ▸ hf, .inl rfl⟩

theorem refl (s : Store) : s.Confined homes s := ofFrames rfl

theorem trans (hst : s.Confined homes t) (htu : t.Confined homes u) : s.Confined homes u := by
  intro id f hf
  obtain ⟨g, hg, hfg⟩ := hst id f hf
  obtain ⟨k, hk, hgk⟩ := htu id g hg
  refine ⟨k, hk, ?_⟩
  rcases hfg with rfl | ⟨hid, hfg⟩
  · exact hgk
  rcases hgk with rfl | ⟨-, hgk⟩
  · exact .inr ⟨hid, hfg⟩
  · exact .inr ⟨hid, hfg.trans hgk⟩

theorem mono {homes' : Set Nat} (h : s.Confined homes t) (hsub : homes ⊆ homes') :
    s.Confined homes' t := by
  intro id f hf
  obtain ⟨g, hg, hfg⟩ := h id f hf
  exact ⟨g, hg, hfg.imp_right fun ⟨hid, hgrows⟩ => ⟨hsub hid, hgrows⟩⟩

theorem grows {id : Nat} {f : Frame} (h : s.Confined homes t) (hf : s.frames[id]? = some f) :
    ∃ g, t.frames[id]? = some g ∧ f.Grows g := by
  obtain ⟨g, hg, hfg⟩ := h id f hf
  refine ⟨g, hg, ?_⟩
  rcases hfg with rfl | ⟨-, hgrows⟩
  · exact .refl g
  · exact hgrows

theorem getElem?_of_notMem {id : Nat} {f : Frame} (h : s.Confined homes t) (hid : id ∉ homes)
    (hf : s.frames[id]? = some f) : t.frames[id]? = some f := by
  obtain ⟨g, hg, rfl | ⟨hmem, -⟩⟩ := h id f hf
  · exact hg
  · exact absurd hmem hid

/-- A new frame leaves the others alone. -/
theorem push (s : Store) (f : Frame) : s.Confined homes { s with frames := s.frames.push f } :=
  fun _ g hg => ⟨g, getElem?_push_of_some hg f, .inl rfl⟩

/-- What is done to a frame that was just made is not done to any of those before it. -/
theorem fresh {f : Frame}
    (h : Confined (insert s.frames.size homes) { s with frames := s.frames.push f } t) :
    s.Confined homes t := by
  intro id g hg
  obtain ⟨k, hk, hgk⟩ := h id g (getElem?_push_of_some hg f)
  have hne : id ≠ s.frames.size := Nat.ne_of_lt (Array.getElem?_eq_some_iff.mp hg).1
  exact ⟨k, hk, hgk.imp_right fun ⟨hid, hgrows⟩ => ⟨hid.resolve_left hne, hgrows⟩⟩

theorem bind {id : Nat} (hid : id ∈ homes) (s : Store) (name : String) (v : Value) :
    s.Confined homes (Store.bind id name v s).2 := by
  cases hn : (s.frame id).names.get? name with
  | some cell =>
    rw [bind_of_some hn]
    exact ofFrames rfl
  | none =>
    rw [bind_of_none hn]
    intro id' f hf
    by_cases heq : id = id'
    · subst heq
      have hnone : f.names.get? name = none := by rwa [frame_of_getElem? hf] at hn
      refine ⟨{ f with names := f.names.put name s.cells.size }, ?_, .inr ⟨hid, .put hnone _⟩⟩
      simp [Array.getElem?_modify, hf]
    · exact ⟨f, by simp [Array.getElem?_modify, heq, hf], .inl rfl⟩

end Confined

/-- Changes by steps that give new variables to no frames but those of `homes`, and no improper keys
to any dict. -/
structure Within (homes : Set Nat) (s t : Store) : Prop where
  leads : s.Leads t
  confined : s.Confined homes t
  dicts : s.DictsProper → t.DictsProper

namespace Within

variable {homes : Set Nat} {s t u : Store}

theorem refl (s : Store) : s.Within homes s := ⟨.refl, .refl s, id⟩

theorem trans (hst : s.Within homes t) (htu : t.Within homes u) : s.Within homes u :=
  ⟨hst.leads.trans htu.leads, hst.confined.trans htu.confined, htu.dicts ∘ hst.dicts⟩

theorem mono {homes' : Set Nat} (h : s.Within homes t) (hsub : homes ⊆ homes') :
    s.Within homes' t :=
  ⟨h.leads, h.confined.mono hsub, h.dicts⟩

/-- A step that leaves the frames and the dicts alone. -/
theorem step (h : s.Step t) (hframes : t.frames = s.frames) (hdicts : t.dicts = s.dicts) :
    s.Within homes t :=
  ⟨.single h, .ofFrames hframes, .ofDicts hdicts⟩

theorem dict (s : Store) {entries : Table Key Value} (h : entries.Proper) :
    s.Within homes { s with dicts := s.dicts.push entries } :=
  ⟨.single (.dict entries), .ofFrames rfl, fun hs => hs.push h⟩

theorem editDict (s : Store) (id : Nat) {f : Table Key Value → Table Key Value}
    (h : ∀ t, t.Proper → (f t).Proper) :
    s.Within homes { s with dicts := s.dicts.modify id f } :=
  ⟨.single (.editDict id f), .ofFrames rfl, fun hs => hs.modify id h⟩

theorem checked (h : s.Within homes t) (hs : s.Checked) : t.Checked := h.leads.checked hs

end Within
end Store

/-- What a computation can make of a machine if it gives new variables to no frames but those of
`homes`, and no improper keys to any dict. -/
structure Machine.Within (homes : Set Nat) (m n : Machine) : Prop where
  leads : m.Leads n
  confined : m.store.Confined homes n.store
  dicts : m.store.DictsProper → n.store.DictsProper

namespace Machine.Within

variable {homes : Set Nat} {m n o : Machine}

theorem refl (m : Machine) : m.Within homes m := ⟨.refl m, .refl _, id⟩

theorem trans (hmn : m.Within homes n) (hno : n.Within homes o) : m.Within homes o :=
  ⟨hmn.leads.trans hno.leads, hmn.confined.trans hno.confined, hno.dicts ∘ hmn.dicts⟩

theorem mono {homes' : Set Nat} (h : m.Within homes n) (hsub : homes ⊆ homes') :
    m.Within homes' n :=
  ⟨h.leads, h.confined.mono hsub, h.dicts⟩

theorem ofStore {s : Store} (h : m.store.Within homes s) : m.Within homes { m with store := s } :=
  ⟨.ofStore h.leads, h.confined, h.dicts⟩

theorem checked (h : m.Within homes n) (hm : m.store.Checked) : n.store.Checked :=
  h.leads.checked hm

end Machine.Within
end Rill
