import Rill.Proofs.Frames

/-! Frames share the variables that they had in common, and nothing else. -/
namespace Rill.Store

/-- One thing that can be done with frames, to some that there are. -/
inductive Scoping (s : Store) : Store → Prop
  | root : Scoping s (newRoot s).2
  | scope {id : Nat} (h : id < s.frames.size) : Scoping s (newScope id s).2
  | body {id : Nat} (h : id < s.frames.size) : Scoping s (newNamespace id s).2
  | copy {id : Nat} (h : id < s.frames.size) : Scoping s (snapshot id s).2
  | bind {id : Nat} (h : id < s.frames.size) (name : String) (v : Value) :
      Scoping s (bind id name v s).2
  | assign {id : Nat} (h : id < s.frames.size) (name : String) (v : Value) :
      Scoping s (assign id name v s).2

/-- Any number of such things, one after another. -/
abbrev Scopings : Store → Store → Prop := Relation.ReflTransGen Scoping

/-- Frames are made after their parents, and variables are there before a frame has them. -/
structure Ordered (s : Store) : Prop where
  parent_lt : ∀ {id : Nat} {f : Frame} {parent : Nat}, s.frames[id]? = some f →
    f.parent = some parent → parent < id
  cell_lt : ∀ {id : Nat} {f : Frame} {name : String} {cell : Nat}, s.frames[id]? = some f →
    f.names.get? name = some cell → cell < s.cells.size

variable {s t : Store} {id id' : Nat} {f g : Frame} {name : String} {cell : Nat}

theorem getElem?_frames (h : id < s.frames.size) : s.frames[id]? = some (s.frame id) := by
  rw [frame, Array.getElem?_eq_getElem h]
  rfl

theorem assign_of_some (h : s.cell? id name = some cell) (v : Value) :
    assign id name v s = (true, { s with cells := s.cells.setIfInBounds cell v }) := by
  unfold assign
  rw [get_bind, h]
  rfl

theorem assign_of_none (h : s.cell? id name = none) (v : Value) :
    assign id name v s = (false, s) := by
  unfold assign
  rw [get_bind, h]
  rfl

theorem ordered_empty : Store.empty.Ordered where
  parent_lt hf := nomatch hf
  cell_lt hf := nomatch hf

namespace Ordered

theorem push (h : s.Ordered) (hparent : ∀ parent, f.parent = some parent → parent < s.frames.size)
    (hcell : ∀ name cell, f.names.get? name = some cell → cell < s.cells.size) :
    Ordered { s with frames := s.frames.push f } := by
  have hcases {id : Nat} {g : Frame} (hg : (s.frames.push f)[id]? = some g) :
      s.frames[id]? = some g ∨ id = s.frames.size ∧ g = f := by
    rw [Array.getElem?_push] at hg
    split at hg
    · next hid => exact .inr ⟨hid, (Option.some.inj hg).symm⟩
    · exact .inl hg
  refine ⟨fun hg hp => ?_, fun hg hn => ?_⟩
  · rcases hcases hg with hg | ⟨rfl, rfl⟩
    · exact h.parent_lt hg hp
    · exact hparent _ hp
  · rcases hcases hg with hg | ⟨rfl, rfl⟩
    · exact h.cell_lt hg hn
    · exact hcell _ _ hn

theorem write (h : s.Ordered) (cell : Nat) (v : Value) :
    Ordered { s with cells := s.cells.setIfInBounds cell v } where
  parent_lt := h.parent_lt
  cell_lt hf hn := by
    have hlt := h.cell_lt hf hn
    simpa using hlt

theorem bind (h : s.Ordered) (id : Nat) (name : String) (v : Value) :
    (Store.bind id name v s).2.Ordered := by
  cases hn : (s.frame id).names.get? name with
  | some cell =>
    rw [bind_of_some hn]
    exact h.write cell v
  | none =>
    rw [bind_of_none hn]
    -- a name of a frame is one from before, or the new name with the new variable
    have hcases {id' : Nat} {g : Frame} (hg : (s.frames.modify id fun f =>
        { f with names := f.names.put name s.cells.size })[id']? = some g) :
        ∃ f, s.frames[id']? = some f ∧ g.parent = f.parent ∧
          ∀ name' cell, g.names.get? name' = some cell →
            f.names.get? name' = some cell ∨ cell = s.cells.size := by
      rw [Array.getElem?_modify] at hg
      split at hg
      · next heq =>
        subst heq
        obtain ⟨f, hf, rfl⟩ := Option.map_eq_some_iff.mp hg
        rw [frame_of_getElem? hf] at hn
        refine ⟨f, hf, rfl, fun name' cell hcell => ?_⟩
        rw [Table.put_of_get?_eq_none hn, Table.get?_push] at hcell
        rcases Option.or_eq_some_iff.mp hcell with hold | ⟨-, hnew⟩
        · exact .inl hold
        · split at hnew
          · exact .inr (Option.some.inj hnew).symm
          · cases hnew
      · exact ⟨g, hg, rfl, fun _ _ => .inl⟩
    refine ⟨fun hg hp => ?_, fun hg hcell => ?_⟩
    · obtain ⟨f, hf, hparent, -⟩ := hcases hg
      exact h.parent_lt hf (hparent ▸ hp)
    · obtain ⟨f, hf, -, hnames⟩ := hcases hg
      rw [Array.size_push]
      rcases hnames _ _ hcell with hold | rfl
      · exact Nat.lt_succ_of_lt (h.cell_lt hf hold)
      · exact Nat.lt_succ_self _

theorem assign (h : s.Ordered) (id : Nat) (name : String) (v : Value) :
    (Store.assign id name v s).2.Ordered := by
  cases hc : s.cell? id name with
  | some cell =>
    rw [assign_of_some hc]
    exact h.write cell v
  | none =>
    rw [assign_of_none hc]
    exact h

end Ordered

namespace Scoping

theorem ordered (h : s.Scoping t) (hs : s.Ordered) : t.Ordered := by
  cases h with
  | root => exact hs.push nofun nofun
  | scope hid | body hid =>
    refine hs.push (fun parent hp => ?_) nofun
    cases hp
    exact hid
  | copy hid =>
    have hf := getElem?_frames hid
    exact hs.push (fun parent hp => (hs.parent_lt hf hp).trans hid) fun _ _ hn => hs.cell_lt hf hn
  | bind _ name v => exact hs.bind _ name v
  | assign _ name v => exact hs.assign _ name v

/-- Frames never lose a variable. -/
theorem confined (h : s.Scoping t) : s.Confined Set.univ t := by
  cases h with
  | root | scope | body | copy => exact .push s _
  | bind _ name v => exact .bind (Set.mem_univ _) s name v
  | @assign id _ name v =>
    cases hc : s.cell? id name with
    | some cell =>
      rw [assign_of_some hc]
      exact .ofFrames rfl
    | none =>
      rw [assign_of_none hc]
      exact .refl s

end Scoping

namespace Scopings

theorem ordered (h : s.Scopings t) (hs : s.Ordered) : t.Ordered := by
  induction h with
  | refl => exact hs
  | tail _ step ih => exact step.ordered ih

theorem confined (h : s.Scopings t) : s.Confined Set.univ t := by
  induction h with
  | refl => exact .refl s
  | tail _ step ih => exact ih.trans step.confined

end Scopings

/-- A frame is inside its parent. -/
def Inside (s : Store) (id parent : Nat) : Prop := (s.frame id).parent = some parent

theorem root_of_none (h : (s.frame id).parent = none) : s.root id = id := by
  rw [root, h]

theorem root_of_inside {parent : Nat} (h : s.Inside id parent) (hlt : parent < id) :
    s.root id = s.root parent := by
  have hparent : (s.frame id).parent = some parent := h
  rw [root, hparent]
  exact if_pos hlt

/-- From every frame the parents lead to a root. -/
theorem Ordered.root_spec (h : s.Ordered) (hid : id < s.frames.size) :
    Relation.ReflTransGen s.Inside id (s.root id) ∧ (s.frame (s.root id)).parent = none := by
  induction id using Nat.strong_induction_on with
  | _ id ih =>
    cases hp : (s.frame id).parent with
    | none =>
      rw [root_of_none hp]
      exact ⟨.refl, hp⟩
    | some parent =>
      have hlt := h.parent_lt (getElem?_frames hid) hp
      obtain ⟨hchain, hroot⟩ := ih parent hlt (hlt.trans hid)
      rw [root_of_inside hp hlt]
      exact ⟨.head hp hchain, hroot⟩

/-- A frame has the same root for ever. -/
theorem Ordered.root_eq (hs : s.Ordered) (hst : s.Confined Set.univ t) (hid : id < s.frames.size) :
    t.root id = s.root id := by
  induction id using Nat.strong_induction_on with
  | _ id ih =>
    obtain ⟨g, hg, hgrows⟩ := hst.grows (getElem?_frames hid)
    have hparent : (t.frame id).parent = (s.frame id).parent := by
      rw [frame_of_getElem? hg]
      exact hgrows.parent
    cases hp : (s.frame id).parent with
    | none => rw [root_of_none hp, root_of_none (hparent.trans hp)]
    | some parent =>
      have hlt := hs.parent_lt (getElem?_frames hid) hp
      rw [root_of_inside hp hlt, root_of_inside (hparent.trans hp) hlt]
      exact ih parent hlt (hlt.trans hid)

theorem cell?_of_some (hf : s.frames[id]? = some f) (hn : f.names.get? name = some cell) :
    s.cell? id name = some cell := by
  rw [cell?, hf]
  simp only [hn]

theorem cell?_of_root (hf : s.frames[id]? = some f) (hn : f.names.get? name = none)
    (hp : f.parent = none) : s.cell? id name = none := by
  rw [cell?, hf]
  simp only [hn, hp]

theorem cell?_of_parent (hf : s.frames[id]? = some f) (hn : f.names.get? name = none)
    {parent : Nat} (hp : f.parent = some parent) (hlt : parent < id) :
    s.cell? id name = s.cell? parent name := by
  rw [cell?, hf]
  simp only [hn, hp, if_pos hlt]

/-- A look-up finds the same if the frame where it begins and all frames up to its parent are the
same. -/
theorem Ordered.cell?_congr (hs : s.Ordered) (hid : t.frames[id]? = s.frames[id]?)
    (h : ∀ parent, s.Inside id parent → ∀ i ≤ parent, t.frames[i]? = s.frames[i]?)
    (name : String) : t.cell? id name = s.cell? id name := by
  induction id using Nat.strong_induction_on with
  | _ id ih =>
    cases hf : s.frames[id]? with
    | none => rw [cell?, cell?, hid, hf]
    | some f =>
      have hf' : t.frames[id]? = some f := hid.trans hf
      cases hn : f.names.get? name with
      | some cell => rw [cell?_of_some hf hn, cell?_of_some hf' hn]
      | none =>
        cases hp : f.parent with
        | none => rw [cell?_of_root hf hn hp, cell?_of_root hf' hn hp]
        | some parent =>
          have hlt := hs.parent_lt hf hp
          have hinside : s.Inside id parent := by rw [Inside, frame_of_getElem? hf, hp]
          have hbefore := h parent hinside
          rw [cell?_of_parent hf hn hp hlt, cell?_of_parent hf' hn hp hlt]
          refine ih parent hlt (hbefore parent (Nat.le_refl parent)) fun outer houter i hi => ?_
          have hout : outer < parent := by
            have hparent := (Array.getElem?_eq_some_iff.mp hf).1
            exact hs.parent_lt (getElem?_frames (hlt.trans hparent)) houter
          exact hbefore i (hi.trans hout.le)

theorem Ordered.cell?_lt (hs : s.Ordered) (h : s.cell? id name = some cell) :
    cell < s.cells.size := by
  induction id using Nat.strong_induction_on with
  | _ id ih =>
    cases hf : s.frames[id]? with
    | none =>
      rw [cell?, hf] at h
      cases h
    | some f =>
      cases hn : f.names.get? name with
      | some cell' =>
        rw [cell?_of_some hf hn] at h
        cases h
        exact hs.cell_lt hf hn
      | none =>
        cases hp : f.parent with
        | none =>
          rw [cell?_of_root hf hn hp] at h
          cases h
        | some parent =>
          have hlt := hs.parent_lt hf hp
          rw [cell?_of_parent hf hn hp hlt] at h
          exact ih parent hlt h

theorem read?_of_some (h : s.cell? id name = some cell) : s.read? id name = s.cells[cell]? := by
  rw [read?, h]
  rfl

theorem read?_of_none (h : s.cell? id name = none) : s.read? id name = none := by
  rw [read?, h]
  rfl

/-- A write shows wherever a look-up finds the variable, and nowhere else. -/
theorem Ordered.read?_write (hs : s.Ordered) (hcell : cell < s.cells.size) (v : Value)
    (id : Nat) (name : String) :
    Store.read? { s with cells := s.cells.setIfInBounds cell v } id name =
      if s.cell? id name = some cell then some v else s.read? id name := by
  have hsame : Store.cell? { s with cells := s.cells.setIfInBounds cell v } id name =
      s.cell? id name := by
    refine hs.cell?_congr ?_ (fun _ _ _ _ => ?_) name <;> rfl
  cases hc : s.cell? id name with
  | none =>
    rw [read?_of_none hc, read?_of_none (hsame.trans hc)]
    rfl
  | some cell' =>
    rw [read?_of_some hc, read?_of_some (hsame.trans hc)]
    by_cases heq : cell' = cell
    · subst heq
      simp [hcell]
    · simp [heq, Ne.symm heq]

/-- Whether there is a variable to assign to, what is then seen and by whom. -/
structure AssignSpec (s : Store) (id : Nat) (name : String) (v : Value) : Prop where
  succeeds : (assign id name v s).1 = true ↔ (s.read? id name).isSome = true
  reads : (assign id name v s).1 = true → ∀ id' name',
    (assign id name v s).2.read? id' name' =
      if s.cell? id' name' = s.cell? id name then some v else s.read? id' name'
  fails : (assign id name v s).1 = false → (assign id name v s).2 = s

theorem Ordered.assign_spec (hs : s.Ordered) (id : Nat) (name : String) (v : Value) :
    s.AssignSpec id name v := by
  cases hc : s.cell? id name with
  | none =>
    have hrun := assign_of_none hc v
    refine ⟨?_, fun htrue => ?_, fun _ => by rw [hrun]⟩
    · rw [hrun, read?_of_none hc]
      simp
    · rw [hrun] at htrue
      cases htrue
  | some cell =>
    have hlt := hs.cell?_lt hc
    have hrun := assign_of_some hc v
    refine ⟨?_, fun _ id' name' => ?_, fun hfalse => ?_⟩
    · rw [hrun, read?_of_some hc]
      simp [hlt]
    · rw [hrun, hc]
      exact hs.read?_write hlt v id' name'
    · rw [hrun] at hfalse
      cases hfalse

/-- Two frames that both were as `f` once. -/
structure Twins (t : Store) (f : Frame) (id id' : Nat) : Prop where
  ne : id ≠ id'
  left : ∃ g, t.frames[id]? = some g ∧ f.Grows g
  right : ∃ g, t.frames[id']? = some g ∧ f.Grows g

namespace Twins

theorem symm (h : t.Twins f id id') : t.Twins f id' id := ⟨h.ne.symm, h.right, h.left⟩

theorem later {u : Store} (h : t.Twins f id id') (hlater : t.Confined Set.univ u) :
    u.Twins f id id' := by
  obtain ⟨g, hg, hfg⟩ := h.left
  obtain ⟨g', hg', hfg'⟩ := h.right
  obtain ⟨k, hk, hgk⟩ := hlater.grows hg
  obtain ⟨k', hk', hgk'⟩ := hlater.grows hg'
  exact ⟨h.ne, ⟨k, hk, hfg.trans hgk⟩, ⟨k', hk', hfg'.trans hgk'⟩⟩

/-- A snapshot is a twin of its frame. -/
theorem ofSnapshot (h : id < s.frames.size) :
    (snapshot id s).2.Twins (s.frame id) id (snapshot id s).1 where
  ne := Nat.ne_of_lt h
  left := ⟨s.frame id, getElem?_push_of_some (getElem?_frames h) _, .refl _⟩
  right := ⟨s.frame id, Array.getElem?_push_size, .refl _⟩

theorem names (h : t.Twins f id id') (hn : f.names.get? name = some cell) :
    (t.frame id).names.get? name = some cell := by
  obtain ⟨g, hg, hgrows⟩ := h.left
  rw [frame_of_getElem? hg]
  exact hgrows.names name cell hn

theorem cell? (h : t.Twins f id id') (hn : f.names.get? name = some cell) :
    t.cell? id name = some cell := by
  obtain ⟨g, hg, hgrows⟩ := h.left
  exact cell?_of_some hg (hgrows.names name cell hn)

theorem read?_bind (h : t.Twins f id id') (ht : t.Ordered) (hn : f.names.get? name = some cell)
    (v : Value) : (Store.bind id name v t).2.read? id' name = some v := by
  rw [bind_of_some (h.names hn)]
  have hcell := h.symm.cell? hn
  rw [ht.read?_write (ht.cell?_lt hcell), if_pos hcell]

theorem read?_assign (h : t.Twins f id id') (ht : t.Ordered) (hn : f.names.get? name = some cell)
    (v : Value) : (assign id name v t).2.read? id' name = some v := by
  rw [assign_of_some (h.cell? hn)]
  have hcell := h.symm.cell? hn
  rw [ht.read?_write (ht.cell?_lt hcell), if_pos hcell]

/-- What is new in one is nowhere to be seen from the other: its look-ups begin in itself and go on
with a parent older than both. -/
theorem read?_bind_new (h : t.Twins f id id') (ht : t.Ordered)
    (hn : (t.frame id).names.get? name = none) (v : Value) :
    (Store.bind id name v t).2.frame id' = t.frame id' ∧
      ∀ name', (Store.bind id name v t).2.read? id' name' = t.read? id' name' := by
  have hrun := congrArg Prod.snd (bind_of_none hn v)
  generalize (Store.bind id name v t).2 = u at hrun ⊢
  have hother {i : Nat} (hi : i ≠ id) : u.frames[i]? = t.frames[i]? := by
    rw [hrun, Array.getElem?_modify, if_neg hi.symm]
  -- both have the parent of `f`, which is older than the frame that was changed
  have hcell (name' : String) : u.cell? id' name' = t.cell? id' name' := by
    refine ht.cell?_congr (hother h.ne.symm) (fun parent hparent i hi => hother ?_) name'
    obtain ⟨g, hg, hgrows⟩ := h.left
    obtain ⟨g', hg', hgrows'⟩ := h.right
    have hp : g.parent = some parent := by
      rw [hgrows.parent, ← hgrows'.parent, ← hparent, frame_of_getElem? hg']
    have hlt := ht.parent_lt hg hp
    omega
  refine ⟨congrArg (·.getD default) (hother h.ne.symm), fun name' => ?_⟩
  cases hc : t.cell? id' name' with
  | none => rw [read?_of_none hc, read?_of_none ((hcell name').trans hc)]
  | some cell =>
    have hlt := ht.cell?_lt hc
    have hne : cell ≠ t.cells.size := Nat.ne_of_lt hlt
    rw [read?_of_some hc, read?_of_some ((hcell name').trans hc), hrun, Array.getElem?_push,
      if_neg hne]

end Twins

/-- What is seen through one frame of what is done through another, if both had the variables `names`
once. -/
structure Shares (t : Store) (names : Table String Nat) (id id' : Nat) : Prop where
  cell : ∀ {name : String} {cell : Nat}, names.get? name = some cell →
    (t.frame id).names.get? name = some cell ∧ (t.frame id').names.get? name = some cell
  bind : ∀ {name : String} {cell : Nat}, names.get? name = some cell → ∀ v,
    (bind id name v t).2.read? id' name = some v
  assign : ∀ {name : String} {cell : Nat}, names.get? name = some cell → ∀ v,
    (assign id name v t).1 = true ∧ (assign id name v t).2.read? id' name = some v
  new : ∀ {name : String}, (t.frame id).names.get? name = none → ∀ v,
    (Store.bind id name v t).2.frame id' = t.frame id' ∧
      ∀ name', (Store.bind id name v t).2.read? id' name' = t.read? id' name'

theorem Twins.shares (h : t.Twins f id id') (ht : t.Ordered) : t.Shares f.names id id' where
  cell hn := ⟨h.names hn, h.symm.names hn⟩
  bind hn v := h.read?_bind ht hn v
  assign hn v := ⟨by rw [assign_of_some (h.cell? hn)], h.read?_assign ht hn v⟩
  new hn v := h.read?_bind_new ht hn v

/-- A frame has the root of its parent, from when it is made on. -/
theorem Ordered.root_later {parent : Nat} (hs : s.Ordered) (hp : f.parent = some parent)
    (hparent : parent < s.frames.size) (hmade : Ordered { s with frames := s.frames.push f })
    (ht : Scopings { s with frames := s.frames.push f } t) :
    t.root s.frames.size = s.root parent := by
  have hpush : s.Confined Set.univ { s with frames := s.frames.push f } := .push s f
  have hinside : Store.Inside { s with frames := s.frames.push f } s.frames.size parent := by
    rw [Inside, frame_of_getElem? Array.getElem?_push_size, hp]
  have hsize : s.frames.size < (s.frames.push f).size := by simp
  rw [hmade.root_eq ht.confined hsize, root_of_inside hinside hparent, hs.root_eq hpush hparent]

/-- Whatever is done with frames, one thing after another: the parents of each frame lead to a root;
a frame made inside another one has the same root, as has a snapshot of a frame that is no root; a
snapshot and its frame share for ever the variables that the frame had at that time, and see nothing
of what is new in the other; and an assignment is seen wherever its variable is, if there is one, and
nowhere else. -/
theorem frames_share (h : Store.empty.Scopings s) :
    (∀ id < s.frames.size,
      (Relation.ReflTransGen s.Inside id (s.root id) ∧ (s.frame (s.root id)).parent = none) ∧
      (∀ t, Scopings (newScope id s).2 t → t.root (newScope id s).1 = t.root id) ∧
      (∀ t, Scopings (newNamespace id s).2 t → t.root (newNamespace id s).1 = t.root id) ∧
      ∀ t, Scopings (snapshot id s).2 t →
        t.Shares (s.frame id).names id (snapshot id s).1 ∧
        t.Shares (s.frame id).names (snapshot id s).1 id ∧
        ∀ parent, s.Inside id parent → t.root (snapshot id s).1 = t.root id) ∧
    ∀ id name v, s.AssignSpec id name v := by
  have hs := h.ordered ordered_empty
  have hkept {f : Frame} {t : Store} (ht : Scopings { s with frames := s.frames.push f } t)
      {id : Nat} (hid : id < s.frames.size) : t.root id = s.root id :=
    hs.root_eq (.trans (.push s f) ht.confined) hid
  refine ⟨fun id hid => ⟨hs.root_spec hid, fun t ht => ?_, fun t ht => ?_, fun t ht => ?_⟩,
    hs.assign_spec⟩
  · rw [hkept ht hid]
    exact hs.root_later rfl hid (Scoping.ordered (.scope hid) hs) ht
  · rw [hkept ht hid]
    exact hs.root_later rfl hid (Scoping.ordered (.body hid) hs) ht
  · have hmade := Scoping.ordered (.copy hid) hs
    have htwins := (Twins.ofSnapshot hid).later ht.confined
    have ht' := ht.ordered hmade
    refine ⟨htwins.shares ht', htwins.symm.shares ht', fun parent hp => ?_⟩
    have hlt := hs.parent_lt (getElem?_frames hid) hp
    rw [hkept ht hid, root_of_inside hp hlt]
    exact hs.root_later hp (hlt.trans hid) hmade ht

/-- A snapshot of a frame with one variable, inside a root. -/
theorem frames_share_variable :
    let s := (bind 1 "x" (.int 1) (newScope 0 (newRoot Store.empty).2).2).2
    let t := (snapshot 1 s).2
    Store.empty.Scopings s ∧ t.root 2 = t.root 1 ∧
      (bind 2 "x" (.int 2) t).2.read? 1 "x" = some (.int 2) := by
  intro s t
  have hs : Store.empty.Scopings s :=
    .tail (.tail (.single .root) (.scope (by decide))) (.bind (by decide) "x" (.int 1))
  have hx : (s.frame 1).names.get? "x" = some 0 := by decide +kernel
  have hinside : (s.frame 1).parent = some 0 := by decide +kernel
  obtain ⟨-, hshares, hroot⟩ := ((frames_share hs).1 1 (by decide)).2.2.2 t .refl
  exact ⟨hs, hroot 0 hinside, hshares.bind hx (.int 2)⟩

end Rill.Store
