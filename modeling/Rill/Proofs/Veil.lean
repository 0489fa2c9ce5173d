import Rill.Proofs.Persistence

/-! What a program can get hold of, and what is kept from it.

All that a value of a program refers to was made before, and what no value refers to stays as it is.
Both are said of the steps that a running program can take, so that they hold in the middle of a run
too. -/
namespace Rill

theorem forall_mem_modify {α : Type} {P : α → Prop} {xs : Array α} {f : α → α}
    (h : ∀ y ∈ xs, P y) (hf : ∀ y, P y → P (f y)) (i : Nat) : ∀ y ∈ xs.modify i f, P y := by
  intro y hy
  obtain ⟨j, hj, hget⟩ := Array.mem_iff_getElem.mp hy
  rw [Array.getElem_modify] at hget
  have hmem := h _ (Array.getElem_mem (by simpa using hj : j < xs.size))
  split at hget
  · exact hget ▸ hf _ hmem
  · exact hget ▸ hmem

namespace Table

variable {α β : Type}

/-- All entries are as said. -/
def All (P : α → β → Prop) (t : Table α β) : Prop := ∀ e ∈ t.entries, P e.1 e.2

namespace All

variable {P Q : α → β → Prop} {t : Table α β}

theorem mono (h : t.All P) (hpq : ∀ key v, P key v → Q key v) : t.All Q :=
  fun e he => hpq e.1 e.2 (h e he)

theorem empty : (Table.empty : Table α β).All P := by
  intro e he
  simp [Table.empty] at he

variable [BEq α]

theorem erase (h : t.All P) (key : α) : (t.erase key).All P :=
  fun e he => h e (Array.mem_filter.mp he).1

variable [LawfulBEq α]

theorem get? (h : t.All P) {key : α} {v : β} (hv : t.get? key = some v) : P key v := by
  obtain ⟨e, he, rfl⟩ := Option.map_eq_some_iff.mp hv
  have hkey : e.1 = key := by simpa using Array.find?_some he
  exact hkey ▸ h e (Array.mem_of_find?_eq_some he)

theorem put (h : t.All P) {key : α} {v : β} (hv : P key v) : (t.put key v).All P := by
  unfold Table.put
  cases hi : t.entries.findIdx? (·.1 == key) with
  | none => exact Array.forall_mem_push.mpr ⟨hv, h⟩
  | some i =>
    -- the entry at that position has this very key
    obtain ⟨hlt, hkey, -⟩ := Array.findIdx?_eq_some_iff_getElem.mp hi
    have hkey : t.entries[i].1 = key := by simpa using hkey
    intro e he
    obtain ⟨j, hj, rfl⟩ := Array.mem_iff_getElem.mp he
    have hj : j < t.entries.size := by simpa using hj
    simp only [Array.getElem_modify]
    split
    · next heq =>
      subst heq
      rw [hkey]
      exact hv
    · exact h _ (Array.getElem_mem hj)

theorem ofList {entries : List (α × β)} (h : ∀ e ∈ entries, P e.1 e.2) :
    (Table.ofList entries).All P := by
  induction entries using List.reverseRecOn with
  | nil => exact empty
  | append_singleton es e ih =>
    rw [ofList_concat]
    exact (ih fun e' he' => h e' (List.mem_append_left [e] he')).put (h e (by simp))

end All
end Table

/-- The fields in which an iterator keeps its elements and its position. -/
def iteratorFields : List String := ["__items__", "__index__"]

/-- What a program is kept from. -/
structure Veil where
  /-- Lists that no value refers to. -/
  lists : Set Nat
  /-- Instances that no value refers to. -/
  objects : Set Nat
  /-- Iterators that are used only through `next` and `iter`. No value need refer to the list of
  their elements. -/
  sealed : Set Nat
  /-- Iterators that are not advanced. -/
  still : Set Nat
  /-- Whether the program may raise exceptions of its own. -/
  raises : Prop

namespace Veil

/-- Nothing is kept from the program. -/
def lifted : Veil := ⟨∅, ∅, ∅, ∅, True⟩

/-- An attribute of a value may be looked up. -/
def Shows (V : Veil) (object : Value) (name : String) : Prop :=
  ∀ id ∈ V.sealed, object = .object id → name ∉ iteratorFields

/-- A field of an instance may be written. -/
def Opens (V : Veil) (id : Nat) (name : String) : Prop :=
  id ∉ V.objects ∧ (id ∈ V.sealed → name ≠ "next" ∧ name ∉ iteratorFields)

end Veil

/-- A value that a program can have: the lists, classes and instances that it refers to were made,
and are not kept from the program. -/
def Value.Known (V : Veil) (s : Store) : Value → Prop
  | .list id => id < s.lists.size ∧ id ∉ V.lists
  | .type id => id < s.classes.size
  | .object id => id < s.instances.size ∧ id ∉ V.objects
  | .bound _ receiver => receiver.Known V s
  | .item _ inner => inner.Known V s
  | _ => True

variable {V : Veil}

namespace Value.Known

theorem of_le {s t : Store} {v : Value} (h : v.Known V s) (hlists : s.lists.size ≤ t.lists.size)
    (hclasses : s.classes.size ≤ t.classes.size) (hobjects : s.instances.size ≤ t.instances.size) :
    v.Known V t := by
  induction v with
  | list id => exact ⟨h.1.trans_le hlists, h.2⟩
  | type id => exact Nat.lt_of_lt_of_le h hclasses
  | object id => exact ⟨h.1.trans_le hobjects, h.2⟩
  | bound f receiver ih => exact ih h
  | item id inner ih => exact ih h
  | _ => trivial

/-- A value stays known. -/
theorem mono {s t : Store} {v : Value} (h : v.Known V s) (hst : s.Persists t) : v.Known V t :=
  h.of_le hst.lists hst.classes_size hst.instances_size

/-- A value stays known if no more is kept from the program. -/
theorem reveil {W : Veil} {s : Store} {v : Value} (h : v.Known V s)
    (hlists : ∀ id < s.lists.size, id ∈ W.lists → id ∈ V.lists)
    (hobjects : ∀ id < s.instances.size, id ∈ W.objects → id ∈ V.objects) : v.Known W s := by
  induction v with
  | list id => exact ⟨h.1, fun hid => h.2 (hlists id h.1 hid)⟩
  | object id => exact ⟨h.1, fun hid => h.2 (hobjects id h.1 hid)⟩
  | type id => exact h
  | bound f receiver ih => exact ih h
  | item id inner ih => exact ih h
  | _ => trivial

theorem all_mono {s t : Store} {vs : List Value} (h : ∀ v ∈ vs, v.Known V s) (hst : s.Persists t) :
    ∀ v ∈ vs, v.Known V t :=
  fun v hv => (h v hv).mono hst

theorem null (s : Store) : Value.Known V s .null := trivial

theorem ofKey (s : Store) (key : Key) : key.toValue.Known V s := by
  cases key <;> trivial

end Value.Known

namespace Store

/-- All values in the store are as said, but those in fields that are kept from the program. -/
structure Contents (V : Veil) (P : Value → Prop) (s : Store) : Prop where
  cells : ∀ v ∈ s.cells, P v
  lists : ∀ elements ∈ s.lists, ∀ v ∈ elements, P v
  dicts : ∀ entries ∈ s.dicts, entries.All fun _ => P
  functions : ∀ f ∈ s.functions, ∀ v, f.receiver = some v → P v
  classes : ∀ c ∈ s.classes, c.attributes.All fun _ => P
  modules : ∀ k ∈ s.modules, k.attributes.All fun _ => P
  objects : ∀ (id : Nat) o, s.instances[id]? = some o → id ∉ V.objects →
    o.fields.All fun name v => V.Shows (.object id) name → P v

theorem Contents.mono {P Q : Value → Prop} {s : Store} (h : s.Contents V P)
    (hpq : ∀ v, P v → Q v) : s.Contents V Q where
  cells v hv := hpq v (h.cells v hv)
  lists elements he v hv := hpq v (h.lists elements he v hv)
  dicts entries he := (h.dicts entries he).mono fun _ => hpq
  functions f hf v hv := hpq v (h.functions f hf v hv)
  classes c hc := (h.classes c hc).mono fun _ => hpq
  modules k hk := (h.modules k hk).mono fun _ => hpq
  objects id o ho hid := (h.objects id o ho hid).mono fun _ v hv hname => hpq v (hv hname)

/-- A store that a program can bring about: all values in it are known, the built-in classes have
their places, and each class but the first derives from one before it. -/
structure Sound (V : Veil) (s : Store) : Prop where
  contents : s.Contents V (Value.Known V s)
  builtins : ∀ c : BuiltinClass, s.classes[c.number]? = some (Session.builtinClass c)
  superclasses : ∀ (id : Nat) c, s.classes[id]? = some c →
    (c.superclass = .none → id = BuiltinClass.object.number) ∧
      ∀ parent, c.superclass = some parent → parent < id
  types : ∀ o ∈ s.instances, o.type < s.classes.size
  lists : ∀ id ∈ V.lists, id < s.lists.size
  objects : ∀ id ∈ V.objects, id < s.instances.size
  sealed : ∀ id ∈ V.sealed, id < s.instances.size ∧ s.field? id "next" = none

/-- A step of a program: what it makes or writes is made of known values. -/
inductive Move (V : Veil) (s : Store) : Store → Prop
  | list (elements : Array Value) (h : ∀ v ∈ elements, v.Known V s) :
      Move V s { s with lists := s.lists.push elements }
  | dict (entries : Table Key Value) (h : entries.All fun _ v => v.Known V s) :
      Move V s { s with dicts := s.dicts.push entries }
  | item : Move V s { s with items := s.items + 1 }
  | function (f : Function) (h : ∀ v, f.receiver = some v → v.Known V s) :
      Move V s { s with functions := s.functions.push f }
  | type (c : Class) (parent : Nat) (h : c.attributes.All fun _ v => v.Known V s)
      (hc : c.superclass = some parent) (hparent : parent < s.classes.size) :
      Move V s { s with classes := s.classes.push c }
  | module (k : Module) (h : k.attributes.All fun _ v => v.Known V s) :
      Move V s { s with modules := s.modules.push k }
  | object (o : Instance) (h : o.fields.All fun _ v => v.Known V s)
      (htype : o.type < s.classes.size) :
      Move V s { s with instances := s.instances.push o }
  | frame (f : Frame) : Move V s { s with frames := s.frames.push f }
  | newVariable (id : Nat) (name : String) (v : Value) (h : v.Known V s) :
      Move V s { s with
        cells := s.cells.push v
        frames := s.frames.modify id fun f => { f with names := f.names.put name s.cells.size } }
  | write (cell : Nat) (v : Value) (h : v.Known V s) :
      Move V s { s with cells := s.cells.setIfInBounds cell v }
  | field (id : Nat) (name : String) (v : Value) (h : v.Known V s) (hopen : V.Opens id name) :
      Move V s { s with
        instances := s.instances.modify id fun o => { o with fields := o.fields.put name v } }
  /-- An iterator is advanced by one element, and that is handed out. -/
  | advance (id items : Nat) (index : Int64) (hitems : s.field? id "__items__" = some (.list items))
      (hindex : s.field? id "__index__" = some (.int index))
      (hlt : index.toInt < (s.list items).size) (hid : id ∉ V.objects) (hstill : id ∉ V.still) :
      Move V s { s with
        instances := s.instances.modify id fun o =>
          { o with fields := o.fields.put "__index__" (.int (index + 1)) }
        items := s.items + 1 }
  | editList (id : Nat) (f : Array Value → Array Value) (hid : id ∉ V.lists)
      (h : ∀ elements, (∀ v ∈ elements, v.Known V s) → ∀ v ∈ f elements, v.Known V s) :
      Move V s { s with lists := s.lists.modify id f }
  | editDict (id : Nat) (f : Table Key Value → Table Key Value)
      (h : ∀ entries : Table Key Value, (entries.All fun _ v => v.Known V s) →
        (f entries).All fun _ v => v.Known V s) :
      Move V s { s with dicts := s.dicts.modify id f }
  | handles (hs : Array Int64) : Move V s { s with handles := hs }

/-- Any number of steps. -/
abbrev Moves (V : Veil) : Store → Store → Prop := Relation.ReflTransGen (Move V)

theorem Move.persists {s t : Store} (h : s.Move V t) : s.Persists t := by
  cases h with
  | list elements => exact .list s elements
  | function f => exact .function s f
  | type c => exact .type s c
  | module k => exact .module s k
  | object o => exact .object s o
  | field id name v => exact .field s id name v
  | advance id _ index => exact { Persists.field s id "__index__" (.int (index + 1)) with }
  | editList id f => exact .editList s id f
  | _ => exact { Persists.refl s with }

theorem Moves.persists {s t : Store} (h : s.Moves V t) : s.Persists t := by
  induction h with
  | refl => exact .refl s
  | tail _ step ih => exact ih.trans step.persists

theorem field?_put_self {s : Store} {id : Nat} (hid : id < s.instances.size) (name : String)
    (v : Value) :
    field? { s with
      instances := s.instances.modify id fun o => { o with fields := o.fields.put name v } }
        id name = some v := by
  have hobject : s.instances[id]? = some s.instances[id] := Array.getElem?_eq_getElem hid
  unfold field?
  dsimp only
  rw [Array.getElem?_modify, if_pos rfl, hobject]
  exact Table.get?_put_self _ name v

theorem field?_put_of_ne {s : Store} {id id' : Nat} {name name' : String}
    (h : id = id' → name ≠ name') (v : Value) :
    field? { s with
      instances := s.instances.modify id fun o => { o with fields := o.fields.put name v } }
        id' name' = s.field? id' name' := by
  unfold field?
  dsimp only
  rw [Array.getElem?_modify]
  split
  · next heq =>
    cases s.instances[id']? with
    | none => rfl
    | some o => exact Table.get?_put_of_ne _ (h heq) v
  · rfl

theorem field?_push {s : Store} {id : Nat} (hid : id < s.instances.size) (o : Instance)
    (name : String) :
    field? { s with instances := s.instances.push o } id name = s.field? id name := by
  unfold field?
  dsimp only
  rw [Array.getElem?_push, if_neg (Nat.ne_of_lt hid)]

/-- What fields may hold is not changed by a new value in one of them. -/
theorem Contents.putField {P : Value → Prop} {s : Store} (h : s.Contents V P) (id : Nat)
    (name : String) (v : Value) (hv : V.Shows (.object id) name → P v) :
    Contents V P { s with
      instances := s.instances.modify id fun o => { o with fields := o.fields.put name v } } := by
  refine { h with objects := fun id' o ho hid' => ?_ }
  rw [Array.getElem?_modify] at ho
  split at ho
  · next heq =>
    obtain ⟨p, hp, rfl⟩ := Option.map_eq_some_iff.mp ho
    subst heq
    exact (h.objects id p hp hid').put hv
  · exact h.objects id' o ho hid'

theorem Move.contents {s t : Store} (h : s.Move V t) (hs : s.Contents V (Value.Known V s)) :
    t.Contents V (Value.Known V t) := by
  have hmono {v : Value} (hv : v.Known V s) : v.Known V t := hv.mono h.persists
  have hold : s.Contents V (Value.Known V t) := hs.mono fun _ => hmono
  cases h with
  | list elements h =>
    exact { hold with lists := Array.forall_mem_push.mpr ⟨fun v hv => hmono (h v hv), hold.lists⟩ }
  | dict entries h =>
    exact { hold with dicts := Array.forall_mem_push.mpr ⟨h.mono fun _ _ => hmono, hold.dicts⟩ }
  | function f h =>
    exact { hold with
      functions := Array.forall_mem_push.mpr ⟨fun v hv => hmono (h v hv), hold.functions⟩ }
  | type c parent h =>
    exact { hold with classes := Array.forall_mem_push.mpr ⟨h.mono fun _ _ => hmono, hold.classes⟩ }
  | module k h =>
    exact { hold with modules := Array.forall_mem_push.mpr ⟨h.mono fun _ _ => hmono, hold.modules⟩ }
  | object o h htype =>
    refine { hold with objects := fun id p hp hid => ?_ }
    rw [Array.getElem?_push] at hp
    split at hp
    · cases hp
      exact h.mono fun _ _ hv _ => hmono hv
    · exact hold.objects id p hp hid
  | newVariable id name v h =>
    exact { hold with cells := Array.forall_mem_push.mpr ⟨hmono h, hold.cells⟩ }
  | write cell v h =>
    refine { hold with cells := fun w hw => ?_ }
    rcases Array.mem_or_eq_of_mem_setIfInBounds hw with hw | rfl
    · exact hold.cells w hw
    · exact hmono h
  | field id name v h => exact hold.putField id name v fun _ => hmono h
  | advance id items index =>
    exact { hold.putField id "__index__" (.int (index + 1)) fun _ => trivial with }
  | editList id f hid h =>
    refine { hold with lists := forall_mem_modify hold.lists (fun elements he v hv => ?_) id }
    have hback (w : Value) (hw : w ∈ elements) : w.Known V s :=
      (he w hw).of_le (by simp) le_rfl le_rfl
    exact hmono (h elements hback v hv)
  | editDict id f h =>
    refine { hold with dicts := forall_mem_modify hold.dicts (fun entries he => ?_) id }
    have hback : entries.All fun _ w => w.Known V s :=
      he.mono fun _ _ hw => hw.of_le le_rfl le_rfl le_rfl
    exact (h entries hback).mono fun _ _ => hmono
  | _ => exact { hold with }

/-- A step leaves a sound store. -/
theorem Move.sound {s t : Store} (h : s.Move V t) (hs : s.Sound V) : t.Sound V where
  contents := h.contents hs.contents
  builtins c := h.persists.classes (hs.builtins c)
  superclasses id c hc := by
    cases h with
    | type c' parent _ hc' hparent =>
      rw [Array.getElem?_push] at hc
      split at hc
      · next hid =>
        cases hc
        rw [hc', hid]
        exact ⟨nofun, fun _ heq => by cases heq; exact hparent⟩
      · exact hs.superclasses id c hc
    | _ => exact hs.superclasses id c hc
  types := by
    have hle : s.classes.size ≤ t.classes.size := h.persists.classes_size
    have hold : ∀ o ∈ s.instances, o.type < t.classes.size := fun o ho =>
      (hs.types o ho).trans_le hle
    have hput (id : Nat) (name : String) (v : Value) :
        ∀ o ∈ s.instances.modify id fun o => { o with fields := o.fields.put name v },
          o.type < t.classes.size := by
      apply forall_mem_modify hold
      intro o ho
      exact ho
    cases h with
    | object o _ htype => exact Array.forall_mem_push.mpr ⟨htype, hold⟩
    | field id name v => exact hput id name v
    | advance id _ index => exact hput id "__index__" (.int (index + 1))
    | _ => exact hold
  lists id hid := (hs.lists id hid).trans_le h.persists.lists
  objects id hid := (hs.objects id hid).trans_le h.persists.instances_size
  sealed id hid := by
    obtain ⟨hlt, hnext⟩ := hs.sealed id hid
    refine ⟨hlt.trans_le h.persists.instances_size, ?_⟩
    cases h with
    | object o => exact (field?_push hlt o "next").trans hnext
    | field id' name v _ hopen =>
      refine (field?_put_of_ne ?_ v).trans hnext
      rintro rfl
      exact (hopen.2 hid).1
    | advance id' _ index =>
      have hne : id' = id → "__index__" ≠ "next" := fun _ => by decide
      exact (field?_put_of_ne hne (.int (index + 1))).trans hnext
    | _ => exact hnext

theorem Moves.sound {s t : Store} (h : s.Moves V t) (hs : s.Sound V) : t.Sound V := by
  induction h with
  | refl => exact hs
  | tail _ step ih => exact step.sound ih

/-- A list that is kept from the program stays as it is. -/
theorem Move.hiddenList {s t : Store} (h : s.Move V t) (hs : s.Sound V) {id : Nat}
    (hid : id ∈ V.lists) : t.lists[id]? = s.lists[id]? := by
  cases h with
  | list elements _ =>
    change (s.lists.push elements)[id]? = _
    rw [Array.getElem?_push, if_neg (Nat.ne_of_lt (hs.lists id hid))]
  | editList id' f hid' _ =>
    have hne : id' ≠ id := by
      rintro rfl
      exact hid' hid
    change (s.lists.modify id' f)[id]? = _
    rw [Array.getElem?_modify, if_neg hne]
  | _ => rfl

theorem Moves.hiddenList {s t : Store} (h : s.Moves V t) (hs : s.Sound V) {id : Nat}
    (hid : id ∈ V.lists) : t.lists[id]? = s.lists[id]? := by
  induction h with
  | refl => rfl
  | tail moves step ih => exact (step.hiddenList (Moves.sound moves hs) hid).trans ih

/-- So does an instance. -/
theorem Move.hiddenObject {s t : Store} (h : s.Move V t) (hs : s.Sound V) {id : Nat}
    (hid : id ∈ V.objects) : t.instances[id]? = s.instances[id]? := by
  have hmodify {id' : Nat} (hid' : id' ∉ V.objects) (f : Instance → Instance) :
      (s.instances.modify id' f)[id]? = s.instances[id]? := by
    have hne : id' ≠ id := by
      rintro rfl
      exact hid' hid
    rw [Array.getElem?_modify, if_neg hne]
  cases h with
  | object o _ _ =>
    change (s.instances.push o)[id]? = _
    rw [Array.getElem?_push, if_neg (Nat.ne_of_lt (hs.objects id hid))]
  | field id' _ _ _ hopen => exact hmodify hopen.1 _
  | advance id' _ _ _ _ _ hid' _ => exact hmodify hid' _
  | _ => rfl

theorem Moves.hiddenObject {s t : Store} (h : s.Moves V t) (hs : s.Sound V) {id : Nat}
    (hid : id ∈ V.objects) : t.instances[id]? = s.instances[id]? := by
  induction h with
  | refl => rfl
  | tail moves step ih => exact (step.hiddenObject (Moves.sound moves hs) hid).trans ih

namespace Sound

variable {s : Store} (hs : s.Sound V)

include hs

theorem list {id : Nat} : ∀ v ∈ s.list id, v.Known V s := by
  intro v hv
  unfold Store.list at hv
  cases h : s.lists[id]? with
  | none => simp [h] at hv
  | some elements =>
    rw [h] at hv
    exact hs.contents.lists elements (Array.mem_of_getElem? h) v hv

theorem dict (id : Nat) : (s.dict id).All fun _ v => v.Known V s := by
  unfold Store.dict
  cases h : s.dicts[id]? with
  | none => exact .empty
  | some entries => exact hs.contents.dicts entries (Array.mem_of_getElem? h)

theorem read? {env : Nat} {name : String} {v : Value} (h : s.read? env name = some v) :
    v.Known V s := by
  obtain ⟨cell, -, hv⟩ := Option.bind_eq_some_iff.mp h
  exact hs.contents.cells v (Array.mem_of_getElem? hv)

theorem bindings (id : Nat) : ∀ e ∈ s.bindings id, e.2.Known V s := by
  intro e he
  obtain ⟨⟨name, cell⟩, -, rfl⟩ := List.mem_map.mp he
  dsimp only
  cases h : s.cells[cell]? with
  | none => trivial
  | some v => exact hs.contents.cells v (Array.mem_of_getElem? h)

theorem attribute? {id : Nat} {name : String} {v : Value} (h : s.attribute? id name = some v) :
    v.Known V s := by
  induction id using Nat.strongRecOn with
  | ind id ih =>
    rw [Store.attribute?] at h
    split at h
    · cases h
    next c hc =>
    split at h
    · next w hw =>
      cases h
      exact (hs.contents.classes c (Array.mem_of_getElem? hc)).get? hw
    split at h
    · cases h
    split at h
    · next hlt => exact ih _ hlt h
    · cases h

theorem field? {id : Nat} {name : String} {v : Value} (h : s.field? id name = some v)
    (hid : id ∉ V.objects) (hshow : V.Shows (.object id) name) : v.Known V s := by
  obtain ⟨o, ho, hv⟩ := Option.bind_eq_some_iff.mp h
  exact (hs.contents.objects id o ho hid).get? hv hshow

theorem module {id : Nat} {name : String} {v : Value}
    (h : (s.modules[id]? >>= (·.attributes.get? name)) = some v) : v.Known V s := by
  obtain ⟨k, hk, hv⟩ := Option.bind_eq_some_iff.mp h
  exact (hs.contents.modules k (Array.mem_of_getElem? hk)).get? hv

theorem builtin_lt (c : BuiltinClass) : c.number < s.classes.size :=
  (Array.getElem?_eq_some_iff.mp (hs.builtins c)).1

end Sound
end Store
end Rill
