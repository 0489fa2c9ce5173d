import Rill.Eval.Call
import Rill.Proofs.Mirror
import Rill.Proofs.Syntax.Bare

/-! Stores that differ only in the places of the functions in them. -/
namespace Rill

namespace Function

/-- The function without the places of its parts. -/
def bare (f : Function) : Function := { f with decl := f.decl.bare }

theorem name_bare (f : Function) : f.bare.name = f.name := by
  obtain ⟨⟨name, parameters, body, span⟩, closure, receiver, isMethod⟩ := f
  rfl

end Function

namespace Store

/-- The store without the places of the functions in it. -/
def bare (s : Store) : Store := { s with functions := s.functions.map Function.bare }

theorem functions_bare (s : Store) (id : Nat) :
    s.bare.functions[id]? = s.functions[id]?.map Function.bare :=
  Array.getElem?_map

theorem functionName_bare (s : Store) : s.bare.functionName = s.functionName := by
  funext id
  have hname : Function.name ∘ Function.bare = Function.name := funext Function.name_bare
  unfold functionName
  rw [functions_bare, Option.map_map, hname]

theorem attribute?_bare (s : Store) (type : Nat) (name : String) :
    s.bare.attribute? type name = s.attribute? type name := by
  induction type using Nat.strongRecOn with
  | ind type ih =>
    have hclasses : s.bare.classes = s.classes := rfl
    rw [attribute?, attribute?, hclasses]
    split
    · rfl
    split
    · rfl
    split
    · rfl
    split
    · next hlt => exact ih _ hlt
    · rfl

theorem derivesFrom_bare (s : Store) (type ancestor : Nat) :
    s.bare.derivesFrom type ancestor = s.derivesFrom type ancestor := by
  induction type using Nat.strongRecOn with
  | ind type ih =>
    have hclasses : s.bare.classes = s.classes := rfl
    rw [derivesFrom, derivesFrom, hclasses]
    split
    · rfl
    split
    · rfl
    split
    · next hlt => exact ih _ hlt
    · rfl

theorem cell?_bare (s : Store) (id : Nat) (name : String) :
    s.bare.cell? id name = s.cell? id name := by
  induction id using Nat.strongRecOn with
  | ind id ih =>
    have hframes : s.bare.frames = s.frames := rfl
    rw [cell?, cell?, hframes]
    split
    · rfl
    split
    · rfl
    split
    · rfl
    split
    · next hlt => exact ih _ hlt
    · rfl

theorem renderer_bare (s : Store) : s.bare.renderer = s.renderer := by
  have hnamed : s.bare.named = s.named := by
    funext v
    cases v with
    | function id => rw [named, named, functionName_bare]
    | _ => rfl
  unfold renderer
  rw [hnamed]
  rfl

theorem render_bare (s : Store) : s.bare.render = s.render := by
  have hcontainers : s.bare.containers = s.containers := rfl
  funext quoted v
  rw [render, render, hcontainers, renderer_bare]

theorem repr_bare (s : Store) : s.bare.repr = s.repr :=
  funext fun v => congrFun (congrFun (render_bare s) true) v

theorem display_bare (s : Store) : s.bare.display = s.display :=
  funext fun v => congrFun (congrFun (render_bare s) false) v

/-- The same store up to places. -/
def Like (s t : Store) : Prop := s.bare = t.bare

namespace Like

variable {s t : Store} (h : s.Like t)

include h

/-- What does not see places is the same of like stores. -/
theorem congr {α : Type} {f : Store → α} (hf : ∀ u : Store, f u.bare = f u) : f s = f t := by
  have hbare : s.bare = t.bare := h
  rw [← hf s, ← hf t, hbare]

theorem list : s.list = t.list := h.congr fun _ => rfl

theorem dict : s.dict = t.dict := h.congr fun _ => rfl

theorem modules : s.modules = t.modules := h.congr fun _ => rfl

theorem className : s.className = t.className := h.congr fun _ => rfl

theorem functionName : s.functionName = t.functionName := h.congr functionName_bare

theorem moduleName : s.moduleName = t.moduleName := h.congr fun _ => rfl

theorem typeOf : s.typeOf = t.typeOf := h.congr fun _ => rfl

theorem instanceClassName : s.instanceClassName = t.instanceClassName := h.congr fun _ => rfl

theorem typeName : s.typeName = t.typeName := h.congr fun _ => rfl

theorem isTruthy : s.isTruthy = t.isTruthy := h.congr fun _ => rfl

theorem field? : s.field? = t.field? := h.congr fun _ => rfl

theorem attribute? : s.attribute? = t.attribute? :=
  h.congr fun u => funext fun type => funext fun name => attribute?_bare u type name

theorem derivesFrom : s.derivesFrom = t.derivesFrom :=
  h.congr fun u => funext fun type => funext fun ancestor => derivesFrom_bare u type ancestor

theorem frame : s.frame = t.frame := h.congr fun _ => rfl

theorem isRoot : s.isRoot = t.isRoot := h.congr fun _ => rfl

theorem isNamespace : s.isNamespace = t.isNamespace := h.congr fun _ => rfl

theorem cell? : s.cell? = t.cell? :=
  h.congr fun u => funext fun id => funext fun name => cell?_bare u id name

theorem read? : s.read? = t.read? := by
  have hcells : s.cells = t.cells := h.congr fun _ => rfl
  funext id name
  rw [Store.read?, Store.read?, h.cell?, hcells]

theorem bindings : s.bindings = t.bindings := h.congr fun _ => rfl

theorem named : s.named = t.named :=
  h.congr fun u => congrArg Renderer.named (renderer_bare u)

theorem instanceText : s.instanceText = t.instanceText := h.congr fun _ => rfl

theorem display : s.display = t.display := h.congr display_bare

theorem repr : s.repr = t.repr := h.congr repr_bare

/-- The functions of like stores are the same up to places. -/
theorem functions (id : Nat) :
    Option.Rel (fun f g => f.bare = g.bare) s.functions[id]? t.functions[id]? := by
  have hbare : s.bare = t.bare := h
  have hmap : s.functions[id]?.map Function.bare = t.functions[id]?.map Function.bare := by
    rw [← functions_bare, ← functions_bare, hbare]
  generalize s.functions[id]? = found at hmap
  generalize t.functions[id]? = found' at hmap
  cases found with
  | none =>
    cases found' with
    | none => exact .none
    | some g => cases hmap
  | some f =>
    cases found' with
    | none => cases hmap
    | some g => exact .some (Option.some.inj hmap)

end Like

/-! ### Actions -/

/-- On like stores, both actions give the same and leave like stores. -/
def ActsAlike {α : Type} (x y : Action α) : Prop :=
  ∀ s t : Store, s.Like t → (x s).1 = (y t).1 ∧ (x s).2.Like (y t).2

namespace ActsAlike

variable {α β : Type} {x y : Action α}

theorem pure (a : α) : ActsAlike (Pure.pure a) (Pure.pure a) := fun _ _ hst => ⟨rfl, hst⟩

theorem bind {f g : α → Action β} (hx : ActsAlike x y) (hf : ∀ a, ActsAlike (f a) (g a)) :
    ActsAlike (x >>= f) (y >>= g) := by
  intro s t hst
  obtain ⟨hvalue, hstore⟩ := hx s t hst
  have hnext := hf (x s).1 (x s).2 (y t).2 hstore
  have hright : (y >>= g) t = g (x s).1 (y t).2 := by
    rw [hvalue]
    rfl
  rw [hright]
  exact hnext

theorem get {f g : Store → Action α} (h : ∀ s t, s.Like t → ActsAlike (f s) (g t)) :
    ActsAlike (get >>= f) (get >>= g) :=
  fun s t hst => h s t hst s t hst

/-- An action that does not see places. -/
theorem ofBare (h : ∀ s : Store, x s.bare = ((x s).1, (x s).2.bare)) : ActsAlike x x := by
  intro s t hst
  have hbare : s.bare = t.bare := hst
  have heq : ((x s).1, (x s).2.bare) = ((x t).1, (x t).2.bare) := by rw [← h s, ← h t, hbare]
  exact Prod.mk.inj heq

theorem mapM {x : α → Action β} (h : ∀ a, ActsAlike (x a) (x a)) (as : List α) :
    ActsAlike (as.mapM x) (as.mapM x) := by
  induction as with
  | nil => exact pure []
  | cons a as ih =>
    rw [List.mapM_cons]
    apply bind (h a)
    intro b
    apply bind ih
    intro bs
    exact pure _

end ActsAlike

theorem alike_newList (elements : Array Value) : ActsAlike (newList elements) (newList elements) :=
  .ofBare fun _ => rfl

theorem alike_newDict (entries : Table Key Value) : ActsAlike (newDict entries) (newDict entries) :=
  .ofBare fun _ => rfl

theorem alike_newItem (inner : Value) : ActsAlike (newItem inner) (newItem inner) :=
  .ofBare fun _ => rfl

theorem alike_newClass (c : Class) : ActsAlike (newClass c) (newClass c) := .ofBare fun _ => rfl

theorem alike_newModule (m : Module) : ActsAlike (newModule m) (newModule m) := .ofBare fun _ => rfl

theorem alike_newInstance (type : Nat) (fields : Table String Value) :
    ActsAlike (newInstance type fields) (newInstance type fields) :=
  .ofBare fun _ => rfl

theorem alike_newFrame (f : Frame) : ActsAlike (newFrame f) (newFrame f) := .ofBare fun _ => rfl

theorem alike_setField (id : Nat) (name : String) (v : Value) :
    ActsAlike (setField id name v) (setField id name v) :=
  .ofBare fun _ => rfl

theorem alike_modifyList (id : Nat) (f : Array Value → Array Value) :
    ActsAlike (modifyList id f) (modifyList id f) :=
  .ofBare fun _ => rfl

theorem alike_modifyDict (id : Nat) (f : Table Key Value → Table Key Value) :
    ActsAlike (modifyDict id f) (modifyDict id f) :=
  .ofBare fun _ => rfl

theorem alike_writeCell (cell : Nat) (v : Value) :
    ActsAlike (writeCell cell v) (writeCell cell v) :=
  .ofBare fun _ => rfl

theorem alike_newFunction {f g : Function} (h : f.bare = g.bare) :
    ActsAlike (newFunction f) (newFunction g) := by
  intro s t hst
  have hbare : s.bare = t.bare := hst
  have hfunctions : s.functions.map Function.bare = t.functions.map Function.bare :=
    congrArg Store.functions hbare
  have hsize : s.functions.size = t.functions.size := by
    simpa using congrArg Array.size hfunctions
  constructor
  · exact congrArg Value.function hsize
  · change { s.bare with functions := (s.functions.push f).map Function.bare } =
      { t.bare with functions := (t.functions.push g).map Function.bare }
    rw [hbare, Array.map_push, Array.map_push, hfunctions, h]

theorem alike_bind (id : Nat) (name : String) (v : Value) :
    ActsAlike (bind id name v) (bind id name v) := by
  apply ActsAlike.get
  intro s t hst
  rw [hst.frame]
  split
  · exact alike_writeCell _ v
  · exact .ofBare fun _ => rfl

theorem alike_assign (id : Nat) (name : String) (v : Value) :
    ActsAlike (assign id name v) (assign id name v) := by
  apply ActsAlike.get
  intro s t hst
  rw [hst.cell?]
  split
  · apply ActsAlike.bind (alike_writeCell _ v)
    intro _
    exact .pure true
  · exact .pure false

theorem alike_capture (id : Nat) : ActsAlike (capture id) (capture id) := by
  apply ActsAlike.get
  intro s t hst
  rw [hst.isRoot]
  split
  · exact .pure id
  · apply ActsAlike.get
    intro s t hst
    rw [hst.frame]
    exact alike_newFrame _

theorem alike_dictKeys (id : Nat) : ActsAlike (dictKeys id) (dictKeys id) := by
  apply ActsAlike.get
  intro s t hst
  rw [hst.dict]
  exact .pure _

theorem alike_dictValues (id : Nat) : ActsAlike (dictValues id) (dictValues id) := by
  apply ActsAlike.get
  intro s t hst
  rw [hst.dict]
  exact .pure _

end Store
end Rill
