import Mathlib.Logic.Relation
import Rill.Machine
import Rill.Syntax.Placement

/-! What a running program can do to a machine, one step at a time. -/
namespace Rill

namespace Store

/-- Every function in the store has a body in which no statement is misplaced. -/
def Checked (s : Store) : Prop := ∀ f ∈ s.functions, f.decl.check = .ok ()

/-- One change of a store. Functions are made of checked bodies only. -/
inductive Step (s : Store) : Store → Prop
  | list (elements : Array Value) : Step s { s with lists := s.lists.push elements }
  | dict (entries : Table Key Value) : Step s { s with dicts := s.dicts.push entries }
  | item : Step s { s with items := s.items + 1 }
  | function (f : Function) (h : f.decl.check = .ok ()) :
      Step s { s with functions := s.functions.push f }
  | type (c : Class) : Step s { s with classes := s.classes.push c }
  | module (m : Module) : Step s { s with modules := s.modules.push m }
  | object (o : Instance) : Step s { s with instances := s.instances.push o }
  | frame (f : Frame) : Step s { s with frames := s.frames.push f }
  /-- A new variable in a frame. -/
  | newVariable (id : Nat) (name : String) (v : Value) :
      Step s { s with
        cells := s.cells.push v
        frames := s.frames.modify id fun f => { f with names := f.names.put name s.cells.size } }
  | write (cell : Nat) (v : Value) : Step s { s with cells := s.cells.setIfInBounds cell v }
  | field (id : Nat) (name : String) (v : Value) :
      Step s { s with
        instances := s.instances.modify id fun o => { o with fields := o.fields.put name v } }
  | editList (id : Nat) (f : Array Value → Array Value) :
      Step s { s with lists := s.lists.modify id f }
  | editDict (id : Nat) (f : Table Key Value → Table Key Value) :
      Step s { s with dicts := s.dicts.modify id f }
  /-- The host changes what it keeps. -/
  | handles (hs : Array Int64) : Step s { s with handles := hs }

/-- Any number of changes. -/
abbrev Leads : Store → Store → Prop := Relation.ReflTransGen Step

theorem Step.checked {s t : Store} (h : s.Step t) (hs : s.Checked) : t.Checked := by
  cases h with
  | function f hf =>
    intro g hg
    rcases Array.mem_push.mp hg with hg | rfl
    · exact hs g hg
    · exact hf
  | _ => exact hs

theorem Leads.checked {s t : Store} (h : s.Leads t) (hs : s.Checked) : t.Checked := by
  induction h with
  | refl => exact hs
  | tail _ step ih => exact step.checked ih

theorem Checked.function {s : Store} (hs : s.Checked) {id : Nat} {f : Function}
    (h : s.functions[id]? = some f) : f.decl.check = .ok () :=
  hs f (Array.mem_of_getElem? h)

theorem checked_empty : Store.empty.Checked := by
  intro f hf
  simp [Store.empty] at hf

end Store

/-- What a computation can make of a machine: it changes the store and prints, and it leaves each
call and each included file that it enters. -/
inductive Machine.Leads : Machine → Machine → Prop
  | refl (m : Machine) : Leads m m
  | trans {m n o : Machine} : Leads m n → Leads n o → Leads m o
  | store (m : Machine) {s : Store} : m.store.Step s → Leads m { m with store := s }
  | print (m : Machine) (line : String) : Leads m { m with output := m.output ++ line ++ "\n" }
  | call (frame : CallFrame) {m n : Machine} : Leads { m with calls := m.calls.push frame } n →
      Leads m { n with calls := n.calls.pop }
  | includeFile (path : String) {m n : Machine} : path ∉ m.includes →
      Leads { m with includes := path :: m.includes } n →
      Leads m { n with includes := n.includes.tail }

namespace Machine.Leads

theorem ofStore {m : Machine} {s : Store} (h : m.store.Leads s) :
    m.Leads { m with store := s } := by
  induction h with
  | refl => exact refl m
  | @tail t u _ step ih => exact ih.trans (.store { m with store := t } step)

/-- The store of a machine only ever changes by steps. -/
theorem toStore {m n : Machine} (h : m.Leads n) : m.store.Leads n.store := by
  induction h with
  | refl => exact .refl
  | trans _ _ ih₁ ih₂ => exact ih₁.trans ih₂
  | store _ step => exact .single step
  | print => exact .refl
  | call _ _ ih => exact ih
  | includeFile _ _ _ ih => exact ih

/-- The calls in progress are the same afterwards. -/
theorem calls {m n : Machine} (h : m.Leads n) : n.calls = m.calls := by
  induction h with
  | refl | store | print => rfl
  | trans _ _ ih₁ ih₂ => exact ih₂.trans ih₁
  | call frame _ ih =>
    change Array.pop _ = _
    rw [ih, Array.pop_push]
  | includeFile _ _ _ ih => exact ih

/-- So are the inclusions in progress. -/
theorem includes {m n : Machine} (h : m.Leads n) : n.includes = m.includes := by
  induction h with
  | refl | store | print => rfl
  | trans _ _ ih₁ ih₂ => exact ih₂.trans ih₁
  | call _ _ ih => exact ih
  | includeFile path _ _ ih =>
    change List.tail _ = _
    rw [ih, List.tail_cons]

theorem checked {m n : Machine} (h : m.Leads n) (hm : m.store.Checked) : n.store.Checked :=
  h.toStore.checked hm

end Machine.Leads
end Rill
