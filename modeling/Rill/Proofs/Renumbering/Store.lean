import Rill.Eval.Call
import Rill.Proofs.Renumbering.Values

/-! Stores of which one has a function more, to which no value refers. -/
namespace Rill.Store

/-- A value is a method if it is a function at all. -/
def IsMethod (s : Store) (v : Value) : Prop :=
  ∀ id, v = .function id → ∃ f, s.functions[id]? = some f ∧ f.isMethod = true

/-- All functions that values in the store refer to were made, and those among the attributes of
classes are methods. -/
structure Closed (s : Store) : Prop where
  cells : Below s.functions.size s.cells
  lists : Below s.functions.size s.lists
  dicts : Below s.functions.size s.dicts
  functions : Below s.functions.size s.functions
  classes : Below s.functions.size s.classes
  instances : Below s.functions.size s.instances
  modules : Below s.functions.size s.modules
  methods : ∀ c ∈ s.classes, c.attributes.All fun _ v => s.IsMethod v

/-- The other store has one function more, at `n`, and values in it refer to those after it by their
new numbers. All else is the same. -/
structure Renumbered (n : Nat) (s t : Store) : Prop where
  closed : s.Closed
  le : n ≤ s.functions.size
  size : t.functions.size = s.functions.size + 1
  functions : ∀ id, t.functions[skip n id]? = renumber n s.functions[id]?
  cells : t.cells = renumber n s.cells
  frames : t.frames = s.frames
  lists : t.lists = renumber n s.lists
  dicts : t.dicts = renumber n s.dicts
  classes : t.classes = renumber n s.classes
  instances : t.instances = renumber n s.instances
  modules : t.modules = renumber n s.modules
  items : t.items = s.items
  handles : t.handles = s.handles

/-- A store in which a function was just made to which nothing refers. -/
theorem Closed.renumbered_push {s : Store} (hs : s.Closed) (f : Function) :
    s.Renumbered s.functions.size { s with functions := s.functions.push f } where
  closed := hs
  le := le_rfl
  size := Array.size_push f
  functions id := by
    rw [(below_getElem? hs.functions id).fixed]
    by_cases hlt : id < s.functions.size
    · rw [skip_of_lt hlt, Array.getElem?_push, if_neg (Nat.ne_of_lt hlt)]
    · have hle : s.functions.size ≤ id := Nat.le_of_not_lt hlt
      rw [skip_of_le hle, Array.getElem?_eq_none hle]
      exact Array.getElem?_eq_none (by simp; omega)
  cells := hs.cells.fixed.symm
  frames := rfl
  lists := hs.lists.fixed.symm
  dicts := hs.dicts.fixed.symm
  classes := hs.classes.fixed.symm
  instances := hs.instances.fixed.symm
  modules := hs.modules.fixed.symm
  items := rfl
  handles := rfl

/-- What holds of all attributes of classes holds of those that are derived. -/
theorem attribute?_all {P : Value → Prop} {s : Store}
    (h : ∀ c ∈ s.classes, c.attributes.All fun _ v => P v) {type : Nat} {name : String} {v : Value}
    (hv : s.attribute? type name = some v) : P v := by
  induction type using Nat.strongRecOn with
  | ind type ih =>
    rw [Store.attribute?] at hv
    split at hv
    · cases hv
    next c hc =>
    split at hv
    · next w hw =>
      cases hv
      exact Table.All.get? (h c (Array.mem_of_getElem? hc)) hw
    split at hv
    · cases hv
    split at hv
    · next hlt => exact ih _ hlt hv
    · cases hv

namespace Closed

variable {s : Store} (hs : s.Closed)

include hs

theorem list (id : Nat) : Below s.functions.size (s.list id) := by
  unfold Store.list
  cases h : s.lists[id]? with
  | none => exact below_empty _
  | some elements => exact hs.lists elements (Array.mem_of_getElem? h)

theorem dict (id : Nat) : Below s.functions.size (s.dict id) := by
  unfold Store.dict
  cases h : s.dicts[id]? with
  | none => exact .empty
  | some entries => exact hs.dicts entries (Array.mem_of_getElem? h)

theorem field? (id : Nat) (name : String) : Below s.functions.size (s.field? id name) := by
  intro v hv
  obtain ⟨o, ho, hv⟩ := Option.bind_eq_some_iff.mp hv
  exact Table.All.get? (hs.instances o (Array.mem_of_getElem? ho)) hv

theorem member? (id : Nat) (name : String) :
    Below s.functions.size (s.modules[id]? >>= (·.attributes.get? name)) := by
  intro v hv
  obtain ⟨k, hk, hv⟩ := Option.bind_eq_some_iff.mp hv
  exact Table.All.get? (hs.modules k (Array.mem_of_getElem? hk)) hv

theorem attribute? (type : Nat) (name : String) :
    Below s.functions.size (s.attribute? type name) :=
  fun _ hv => attribute?_all hs.classes hv

theorem read? (env : Nat) (name : String) : Below s.functions.size (s.read? env name) := by
  intro v hv
  obtain ⟨cell, -, hv⟩ := Option.bind_eq_some_iff.mp hv
  exact hs.cells v (Array.mem_of_getElem? hv)

theorem bindings (id : Nat) : ∀ e ∈ s.bindings id, Below s.functions.size e.2 := by
  intro e he
  obtain ⟨⟨name, cell⟩, -, rfl⟩ := List.mem_map.mp he
  dsimp only
  cases h : s.cells[cell]? with
  | none => trivial
  | some v => exact hs.cells v (Array.mem_of_getElem? h)

end Closed

namespace Renumbered

variable {n : Nat} {s t : Store} (h : s.Renumbered n t)

include h

theorem list (id : Nat) : t.list id = renumber n (s.list id) := by
  unfold Store.list
  rw [h.lists, renumber_getElem?]
  cases s.lists[id]? with
  | none => exact renumber_empty.symm
  | some elements => rfl

theorem dict (id : Nat) : t.dict id = renumber n (s.dict id) := by
  unfold Store.dict
  rw [h.dicts, renumber_getElem?]
  cases s.dicts[id]? with
  | none => exact Table.empty_renumber.symm
  | some entries => rfl

theorem className : t.className = s.className := by
  funext id
  unfold Store.className
  rw [h.classes, renumber_getElem?]
  cases s.classes[id]? <;> rfl

theorem functionName (id : Nat) : t.functionName (skip n id) = s.functionName id := by
  unfold Store.functionName
  rw [h.functions]
  cases s.functions[id]? <;> rfl

theorem moduleName : t.moduleName = s.moduleName := by
  funext id
  unfold Store.moduleName
  rw [h.modules, renumber_getElem?]
  cases s.modules[id]? <;> rfl

theorem typeOf : t.typeOf = s.typeOf := by
  funext id
  unfold Store.typeOf
  rw [h.instances, renumber_getElem?]
  cases s.instances[id]? <;> rfl

theorem instanceClassName : t.instanceClassName = s.instanceClassName := by
  funext id
  rw [Store.instanceClassName, Store.instanceClassName, h.className, h.typeOf]

theorem typeName (v : Value) : t.typeName (renumber n v) = s.typeName v := by
  cases v with
  | object id => exact congrFun h.instanceClassName id
  | _ => rfl

theorem isTruthy (v : Value) : t.isTruthy (renumber n v) = s.isTruthy v := by
  cases v with
  | list id =>
    change (!(t.list id).isEmpty) = !(s.list id).isEmpty
    rw [h.list, Array.isEmpty, renumber_size, Array.isEmpty]
  | dict id =>
    change ((t.dict id).size != 0) = ((s.dict id).size != 0)
    rw [h.dict, Table.size_renumber]
  | _ => rfl

theorem field? (id : Nat) (name : String) : t.field? id name = renumber n (s.field? id name) := by
  unfold Store.field?
  rw [h.instances, renumber_getElem?]
  cases s.instances[id]? with
  | none => rfl
  | some o => exact Table.get?_renumber o.fields name

theorem member? (id : Nat) (name : String) :
    (t.modules[id]? >>= (·.attributes.get? name)) =
      renumber n (s.modules[id]? >>= (·.attributes.get? name)) := by
  rw [h.modules, renumber_getElem?]
  cases s.modules[id]? with
  | none => rfl
  | some k => exact Table.get?_renumber k.attributes name

theorem attribute? (type : Nat) (name : String) :
    t.attribute? type name = renumber n (s.attribute? type name) := by
  induction type using Nat.strongRecOn with
  | ind type ih =>
    rw [Store.attribute?, Store.attribute?, h.classes, renumber_getElem?]
    cases s.classes[type]? with
    | none => rfl
    | some c =>
      have hget : (renumber n c).attributes.get? name = renumber n (c.attributes.get? name) :=
        Table.get?_renumber c.attributes name
      have hsuper : (renumber n c).superclass = c.superclass := rfl
      dsimp only [renumber_option, Option.map_some]
      rw [hget, hsuper]
      cases c.attributes.get? name with
      | some v => rfl
      | none =>
        cases c.superclass with
        | none => rfl
        | some parent =>
          change (if parent < type then t.attribute? parent name else none) = _
          dsimp only
          split
          · next hlt => exact ih parent hlt
          · rfl

theorem derivesFrom (type ancestor : Nat) :
    t.derivesFrom type ancestor = s.derivesFrom type ancestor := by
  have hsuper (id : Nat) :
      (t.classes[id]? >>= Class.superclass) = (s.classes[id]? >>= Class.superclass) := by
    rw [h.classes, renumber_getElem?]
    cases s.classes[id]? <;> rfl
  induction type using Nat.strongRecOn with
  | ind type ih =>
    rw [Store.derivesFrom, Store.derivesFrom, hsuper]
    split
    · rfl
    split
    · rfl
    split
    · next hlt => exact ih _ hlt
    · rfl

theorem frame : t.frame = s.frame := by
  funext id
  unfold Store.frame
  rw [h.frames]

theorem isRoot : t.isRoot = s.isRoot := by
  funext id
  rw [Store.isRoot, Store.isRoot, h.frame]

theorem isNamespace : t.isNamespace = s.isNamespace := by
  funext id
  rw [Store.isNamespace, Store.isNamespace, h.frame]

theorem cell? (id : Nat) (name : String) : t.cell? id name = s.cell? id name := by
  induction id using Nat.strongRecOn with
  | ind id ih =>
    rw [Store.cell?, Store.cell?, h.frames]
    split
    · rfl
    split
    · rfl
    split
    · rfl
    split
    · next hlt => exact ih _ hlt
    · rfl

theorem read? (env : Nat) (name : String) : t.read? env name = renumber n (s.read? env name) := by
  rw [Store.read?, Store.read?, h.cell?, h.cells]
  cases s.cell? env name with
  | none => rfl
  | some cell => exact renumber_getElem? s.cells cell

theorem bindings (id : Nat) :
    t.bindings id = (s.bindings id).map fun (name, v) => (name, renumber n v) := by
  rw [Store.bindings, Store.bindings, h.frame, List.map_map, h.cells]
  apply List.map_congr_left
  rintro ⟨name, cell⟩ -
  dsimp only [Function.comp_apply]
  rw [renumber_getElem?]
  cases s.cells[cell]? <;> rfl

theorem containers : t.containers = s.containers := by
  rw [Store.containers, Store.containers, h.lists, h.dicts, renumber_size, renumber_size]

theorem instanceText : t.instanceText = s.instanceText := by
  funext id
  rw [Store.instanceText, Store.instanceText, h.instanceClassName]

theorem named (v : Value) : t.named (renumber n v) = s.named v := by
  cases v with
  | function id => exact congrArg (fun name => "<function " ++ name ++ ">") (h.functionName id)
  | type id =>
    change "<class " ++ t.className id ++ ">" = "<class " ++ s.className id ++ ">"
    rw [h.className]
  | module id =>
    change "<module " ++ t.moduleName id ++ ">" = "<module " ++ s.moduleName id ++ ">"
    rw [h.moduleName]
  | _ => rfl

theorem renderer_value {k k' : Container → Id String} (hk : ∀ c, k' c = k c) (quoted : Bool)
    (v : Value) : t.renderer.value k' quoted (renumber n v) = s.renderer.value k quoted v := by
  induction v generalizing quoted with
  | list id => exact hk (.list id)
  | dict id => exact hk (.dict id)
  | object id => exact congrFun h.instanceText id
  | function id => exact h.named (.function id)
  | type id => exact h.named (.type id)
  | module id => exact h.named (.module id)
  | item id inner ih => exact congrArg (fun text => "Item(" ++ Id.run text ++ ")") (ih true)
  | _ => rfl

end Renumbered

/-- A list that is changed first and then gone through. -/
theorem mapM_map_of_eq {m : Type → Type} [Monad m] [LawfulMonad m] {α β γ : Type} {φ : α → β}
    {f : α → m γ} {g : β → m γ} (h : ∀ a, g (φ a) = f a) (as : List α) :
    (as.map φ).mapM g = as.mapM f := by
  induction as with
  | nil => rfl
  | cons a as ih => rw [List.map_cons, List.mapM_cons, List.mapM_cons, h, ih]

namespace Renumbered

variable {n : Nat} {s t : Store} (h : s.Renumbered n t)

include h

theorem renderer_container (depth : Nat) (active : List Container) (c : Container) :
    t.renderer.container depth active c = s.renderer.container depth active c := by
  induction depth generalizing active c with
  | zero => rfl
  | succ depth ih =>
    have hinner := h.renderer_value (ih (c :: active)) true
    unfold Renderer.container
    split
    · rfl
    cases c with
    | list id =>
      have hparts := mapM_map_of_eq hinner (s.list id).toList
      rw [← Array.toList_map, ← renumber_array, ← h.list] at hparts
      exact congrArg (fun parts : Id (List String) => parts >>= fun parts =>
        pure ("[" ++ ", ".intercalate parts ++ "]")) hparts
    | dict id =>
      let part (r : Renderer Id) (e : Key × Value) : Id String := do
        let k ← r.value (r.container depth (.dict id :: active)) true e.1.toValue
        return k ++ ": " ++ (← r.value (r.container depth (.dict id :: active)) true e.2)
      have hpart (e : Key × Value) : part t.renderer (e.1, renumber n e.2) = part s.renderer e := by
        dsimp only [part]
        rw [hinner e.2, ← hinner e.1.toValue, Key.toValue_renumber]
      have hparts := mapM_map_of_eq hpart (s.dict id).entries.toList
      rw [← Array.toList_map, ← Table.renumber_entries, ← h.dict] at hparts
      exact congrArg (fun parts : Id (List String) => parts >>= fun parts =>
        pure ("\x7b" ++ ", ".intercalate parts ++ "\x7d")) hparts

theorem render (quoted : Bool) (v : Value) :
    t.render quoted (renumber n v) = s.render quoted v := by
  rw [Store.render, Store.render, h.containers]
  exact h.renderer_value (h.renderer_container _ []) quoted v

theorem repr (v : Value) : t.repr (renumber n v) = s.repr v := h.render true v

theorem display (v : Value) : t.display (renumber n v) = s.display v := h.render false v

end Renumbered
end Rill.Store
