import Rill.Proofs.Renumbering.Store

/-! Actions on stores of which one has a function more. -/
namespace Rill.Renumbering

open Store (Renumbered)

variable {α β : Type}

/-- Both actions gave the same up to the numbers of functions, and left stores that are the same in
that way. -/
structure Acted [Carries α] (n k : Nat) (p q : α × Store) : Prop where
  value : q.1 = renumber n p.1
  below : Below p.2.functions.size p.1
  store : p.2.Renumbered n q.2
  le : k ≤ p.2.functions.size

theorem Acted.bind [Carries α] [Carries β] {n k : Nat} {x y : Store.Action α}
    {f g : α → Store.Action β} {s t : Store} (hx : Acted n k (x s) (y t))
    (hf : Acted n (x s).2.functions.size (f (x s).1 (x s).2) (g (renumber n (x s).1) (y t).2)) :
    Acted n k ((x >>= f) s) ((y >>= g) t) := by
  have hright : (y >>= g) t = g (renumber n (x s).1) (y t).2 := by
    rw [← hx.value]
    rfl
  rw [hright]
  exact { hf with le := hx.le.trans hf.le }

/-- From such stores with at least `k` functions, both actions give the same and leave such stores
again. What was made before stays below the number of functions. -/
def Acts [Carries α] (n k : Nat) (x y : Store.Action α) : Prop :=
  ∀ s t, s.Renumbered n t → k ≤ s.functions.size → Acted n k (x s) (y t)

namespace Acts

variable {n k : Nat} [Carries α] [Carries β] {x y : Store.Action α}

theorem pure {a b : α} (hb : b = renumber n a) (ha : Below k a) :
    Acts n k (Pure.pure a) (Pure.pure b) :=
  fun _ _ hst hk => ⟨hb, ha.mono hk, hst, hk⟩

/-- A result in which no values can stand. -/
theorem done {γ : Type} (c : γ) :
    @Acts γ (.plain γ) n k (Pure.pure c) (Pure.pure c) :=
  fun _ _ hst hk => @Acted.mk γ (.plain γ) n k (c, _) (c, _) rfl trivial hst hk

theorem bind {f g : α → Store.Action β} (hx : Acts n k x y)
    (hf : ∀ j a, k ≤ j → Below j a → Acts n j (f a) (g (renumber n a))) :
    Acts n k (x >>= f) (y >>= g) := by
  intro s t hst hk
  have hxs := hx s t hst hk
  exact hxs.bind (hf _ _ hxs.le hxs.below _ _ hxs.store le_rfl)

/-- What goes on after a result in which no values can stand. -/
theorem andThen {γ : Type} {x y : Store.Action γ} {f g : γ → Store.Action β}
    (hx : @Acts γ (.plain γ) n k x y) (hf : ∀ j c, k ≤ j → Acts n j (f c) (g c)) :
    Acts n k (x >>= f) (y >>= g) :=
  @bind γ β n k (.plain γ) _ x y f g hx fun j c hj _ => hf j c hj

theorem get {f g : Store → Store.Action α}
    (h : ∀ s t, s.Renumbered n t → k ≤ s.functions.size → Acts n s.functions.size (f s) (g t)) :
    Acts n k (get >>= f) (get >>= g) := by
  intro s t hst hk
  have hnext := h s t hst hk s t hst le_rfl
  exact { hnext with le := hk.trans hnext.le }

theorem mapM {γ δ : Type} {f : γ → Store.Action α} {g : δ → Store.Action α} {φ : γ → δ}
    {as : List γ} (h : ∀ j, ∀ a ∈ as, k ≤ j → Acts n j (f a) (g (φ a))) :
    Acts n k (as.mapM f) ((as.map φ).mapM g) := by
  induction as generalizing k with
  | nil => exact pure rfl nofun
  | cons a as ih =>
    rw [List.map_cons, List.mapM_cons, List.mapM_cons]
    refine .bind (h k a List.mem_cons_self le_rfl) fun j b hj hb => ?_
    have hrest := ih fun i a ha hi => h i a (List.mem_cons_of_mem _ ha) (hj.trans hi)
    refine .bind hrest fun i bs hi hbs => ?_
    exact .pure rfl (below_cons (hb.mono hi) hbs)

end Acts

section

variable {n k : Nat}

/-- An action that changes the store alone. -/
theorem acts_modify {f g : Store → Store}
    (h : ∀ s t, s.Renumbered n t → k ≤ s.functions.size →
      (f s).Renumbered n (g t) ∧ (f s).functions.size = s.functions.size) :
    Acts n k (modify f) (modify g) := by
  intro s t hst hk
  obtain ⟨hstore, hsize⟩ := h s t hst hk
  exact ⟨rfl, trivial, hstore, hk.trans_eq hsize.symm⟩

theorem acts_newList {elements : Array Value} (h : Below k elements) :
    Acts n k (Store.newList elements) (Store.newList (renumber n elements)) := by
  intro s t hst hk
  refine ⟨?_, trivial, ?_, hk⟩
  · change Value.list t.lists.size = .list s.lists.size
    rw [hst.lists, renumber_size]
  · refine { hst with
      closed := { hst.closed with lists := below_push hst.closed.lists (h.mono hk) }
      lists := ?_ }
    change t.lists.push _ = _
    rw [hst.lists]
    exact (renumber_push _ _).symm

theorem acts_newDict {entries : Table Key Value} (h : Below k entries) :
    Acts n k (Store.newDict entries) (Store.newDict (renumber n entries)) := by
  intro s t hst hk
  refine ⟨?_, trivial, ?_, hk⟩
  · change Value.dict t.dicts.size = .dict s.dicts.size
    rw [hst.dicts, renumber_size]
  · refine { hst with
      closed := { hst.closed with dicts := below_push hst.closed.dicts (h.mono hk) }
      dicts := ?_ }
    change t.dicts.push _ = _
    rw [hst.dicts]
    exact (renumber_push _ _).symm

theorem acts_newItem {inner : Value} (h : Below k inner) :
    Acts n k (Store.newItem inner) (Store.newItem (renumber n inner)) := by
  intro s t hst hk
  refine ⟨?_, h.mono hk, ?_, hk⟩
  · change Value.item t.items (renumber n inner) = .item s.items (renumber n inner)
    rw [hst.items]
  · exact { hst with closed := { hst.closed with }, items := congrArg (· + 1) hst.items }

theorem isMethod_push {s : Store} {v : Value} (h : s.IsMethod v) (f : Function) :
    Store.IsMethod { s with functions := s.functions.push f } v := by
  intro id hid
  obtain ⟨g, hg, hmethod⟩ := h id hid
  exact ⟨g, Store.getElem?_push_of_some hg f, hmethod⟩

/-- A new function has the number after the last one on both sides. -/
theorem acts_newFunction {f : Function} (h : Below k f) :
    Acts n k (Store.newFunction f) (Store.newFunction (renumber n f)) := by
  intro s t hst hk
  have hsize : (s.functions.push f).size = s.functions.size + 1 := Array.size_push f
  have hle : s.functions.size ≤ (s.functions.push f).size := by omega
  have hskip : skip n s.functions.size = s.functions.size + 1 := skip_of_le hst.le
  refine ⟨?_, ?_, ?_, hk.trans hle⟩
  · change Value.function t.functions.size = .function (skip n s.functions.size)
    rw [hst.size, hskip]
  · change s.functions.size < (s.functions.push f).size
    omega
  · refine { hst with
      closed := ?_
      le := hst.le.trans hle
      size := ?_
      functions := fun id => ?_ }
    · exact {
        cells := hst.closed.cells.mono hle
        lists := hst.closed.lists.mono hle
        dicts := hst.closed.dicts.mono hle
        functions := below_push (hst.closed.functions.mono hle) (h.mono (hk.trans hle))
        classes := hst.closed.classes.mono hle
        instances := hst.closed.instances.mono hle
        modules := hst.closed.modules.mono hle
        methods := fun c hc => (hst.closed.methods c hc).mono fun _ _ hv => isMethod_push hv f }
    · change (t.functions.push _).size = (s.functions.push f).size + 1
      rw [Array.size_push, hst.size, hsize]
    · change (t.functions.push _)[skip n id]? = renumber n (s.functions.push f)[id]?
      rw [Array.getElem?_push, Array.getElem?_push, hst.size, ← hskip]
      by_cases hid : id = s.functions.size
      · rw [if_pos hid, if_pos (congrArg (skip n) hid)]
        rfl
      · rw [if_neg hid, if_neg (skip_inj.not.mpr hid)]
        exact hst.functions id

/-- A class whose attributes are methods where they are functions. -/
theorem acted_newClass {s t : Store} (hst : s.Renumbered n t) {c : Class}
    (h : Below s.functions.size c) (hmethods : c.attributes.All fun _ v => s.IsMethod v) :
    Acted n s.functions.size (Store.newClass c s) (Store.newClass (renumber n c) t) := by
  refine ⟨?_, trivial, ?_, le_rfl⟩
  · change Value.type t.classes.size = .type s.classes.size
    rw [hst.classes, renumber_size]
  · refine { hst with
      closed := { hst.closed with
        classes := below_push hst.closed.classes h
        methods := Array.forall_mem_push.mpr ⟨hmethods, hst.closed.methods⟩ }
      classes := ?_ }
    change t.classes.push _ = _
    rw [hst.classes]
    exact (renumber_push _ _).symm

theorem acts_newModule {m : Module} (h : Below k m) :
    Acts n k (Store.newModule m) (Store.newModule (renumber n m)) := by
  intro s t hst hk
  refine ⟨?_, trivial, ?_, hk⟩
  · change Value.module t.modules.size = .module s.modules.size
    rw [hst.modules, renumber_size]
  · refine { hst with
      closed := { hst.closed with modules := below_push hst.closed.modules (h.mono hk) }
      modules := ?_ }
    change t.modules.push _ = _
    rw [hst.modules]
    exact (renumber_push _ _).symm

theorem acts_newInstance (type : Nat) {fields : Table String Value} (h : Below k fields) :
    Acts n k (Store.newInstance type fields) (Store.newInstance type (renumber n fields)) := by
  intro s t hst hk
  have ho : Below s.functions.size (Instance.mk type fields) := h.mono hk
  refine ⟨?_, trivial, ?_, hk⟩
  · change t.instances.size = s.instances.size
    rw [hst.instances, renumber_size]
  · refine { hst with
      closed := { hst.closed with instances := below_push hst.closed.instances ho }
      instances := ?_ }
    change t.instances.push _ = _
    rw [hst.instances]
    exact (renumber_push _ (Instance.mk type fields)).symm

theorem acts_newFrame (f : Frame) : Acts n k (Store.newFrame f) (Store.newFrame f) := by
  intro s t hst hk
  refine ⟨congrArg Array.size hst.frames, trivial, ?_, hk⟩
  exact { hst with
    closed := { hst.closed with }
    frames := congrArg (Array.push · f) hst.frames }

theorem acts_setField (id : Nat) (name : String) {v : Value} (h : Below k v) :
    Acts n k (Store.setField id name v) (Store.setField id name (renumber n v)) := by
  refine acts_modify fun s t hst hk => ⟨?_, rfl⟩
  have hinstances : Below s.functions.size
      (s.instances.modify id fun o => { o with fields := o.fields.put name v }) :=
    below_modify hst.closed.instances id fun o ho => Table.All.put ho (h.mono hk)
  refine { hst with
    closed := { hst.closed with instances := hinstances }
    instances := ?_ }
  dsimp only
  rw [hst.instances]
  exact (renumber_modify _ id fun o => congrArg (Instance.mk o.type)
    (Table.put_renumber o.fields name v)).symm

theorem acts_modifyList (id : Nat) {f g : Array Value → Array Value}
    (hf : ∀ j elements, k ≤ j → Below j elements → Below j (f elements))
    (hfg : ∀ elements, renumber n (f elements) = g (renumber n elements)) :
    Acts n k (Store.modifyList id f) (Store.modifyList id g) := by
  refine acts_modify fun s t hst hk => ⟨?_, rfl⟩
  refine { hst with
    closed := { hst.closed with
      lists := below_modify hst.closed.lists id fun elements he => hf _ elements hk he }
    lists := ?_ }
  dsimp only
  rw [hst.lists]
  exact (renumber_modify _ id hfg).symm

theorem acts_modifyDict (id : Nat) {f g : Table Key Value → Table Key Value}
    (hf : ∀ j entries, k ≤ j → Below j entries → Below j (f entries))
    (hfg : ∀ entries, renumber n (f entries) = g (renumber n entries)) :
    Acts n k (Store.modifyDict id f) (Store.modifyDict id g) := by
  refine acts_modify fun s t hst hk => ⟨?_, rfl⟩
  refine { hst with
    closed := { hst.closed with
      dicts := below_modify hst.closed.dicts id fun entries he => hf _ entries hk he }
    dicts := ?_ }
  dsimp only
  rw [hst.dicts]
  exact (renumber_modify _ id hfg).symm

theorem acts_writeCell (cell : Nat) {v : Value} (h : Below k v) :
    Acts n k (Store.writeCell cell v) (Store.writeCell cell (renumber n v)) := by
  refine acts_modify fun s t hst hk => ⟨?_, rfl⟩
  refine { hst with
    closed := { hst.closed with
      cells := below_setIfInBounds hst.closed.cells (h.mono hk) cell }
    cells := ?_ }
  change t.cells.setIfInBounds cell _ = _
  rw [hst.cells]
  exact (renumber_setIfInBounds _ cell v).symm

theorem acts_bind (id : Nat) (name : String) {v : Value} (h : Below k v) :
    Acts n k (Store.bind id name v) (Store.bind id name (renumber n v)) := by
  refine .get fun s t hst hk => ?_
  rw [hst.frame]
  split
  · exact acts_writeCell _ (h.mono hk)
  · refine acts_modify fun s' t' hst' hk' => ⟨?_, rfl⟩
    refine { hst' with
      closed := { hst'.closed with
        cells := below_push hst'.closed.cells (h.mono (hk.trans hk')) }
      cells := ?_
      frames := ?_ }
    · change t'.cells.push _ = _
      rw [hst'.cells]
      exact (renumber_push _ _).symm
    · have hcell : t'.cells.size = s'.cells.size := by rw [hst'.cells, renumber_size]
      dsimp only
      rw [hst'.frames, hcell]

theorem acts_assign (id : Nat) (name : String) {v : Value} (h : Below k v) :
    Acts n k (Store.assign id name v) (Store.assign id name (renumber n v)) := by
  refine .get fun s t hst hk => ?_
  rw [hst.cell?]
  split
  · exact .andThen (acts_writeCell _ (h.mono hk)) fun _ _ _ => .done true
  · exact .done false

theorem acts_capture (id : Nat) : Acts n k (Store.capture id) (Store.capture id) := by
  refine .get fun s t hst hk => ?_
  rw [hst.isRoot]
  split
  · exact .done id
  · refine .get fun s' t' hst' hk' => ?_
    rw [hst'.frame]
    exact acts_newFrame _

theorem acts_dictKeys (id : Nat) : Acts n k (Store.dictKeys id) (Store.dictKeys id) := by
  refine .get fun s t hst hk => .pure ?_ ?_
  · rw [hst.dict, Table.renumber_entries, renumber_array, Array.map_map, Array.map_map]
    refine Array.map_congr_left fun e _ => ?_
    exact (Key.toValue_renumber n e.1).symm
  · intro v hv
    obtain ⟨e, -, rfl⟩ := Array.mem_map.mp hv
    exact Key.below_toValue _ e.1

theorem acts_dictValues (id : Nat) : Acts n k (Store.dictValues id) (Store.dictValues id) := by
  refine .get fun s t hst hk => .pure ?_ ?_
  · rw [hst.dict, Table.renumber_entries, renumber_array, Array.map_map, Array.map_map]
    rfl
  · intro v hv
    obtain ⟨e, he, rfl⟩ := Array.mem_map.mp hv
    exact hst.closed.dict id e he

end

end Rill.Renumbering
