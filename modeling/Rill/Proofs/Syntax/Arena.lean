import Rill.Syntax.Arena

/-! What a table keeps as nodes are placed in it one after another. -/
namespace Rill.Syntax

open Text (Span)

namespace Arena

/-- Every node, every place and every function literal of one table stands at the same number in
another. -/
structure Within (a b : Arena) : Prop where
  node {i : Nat} {node : Node} : a.node? i = some node → b.node? i = some node
  span {i : Nat} {span : Span} : a.span? i = some span → b.span? i = some span
  literal {i : Nat} {decl : FunctionDecl} :
    a.functions[i]? = some decl → b.functions[i]? = some decl
  size : a.nodes.size ≤ b.nodes.size

/-- What stands in an array stays where it is when the array grows. -/
theorem getElem?_push_of_some {α : Type} {xs : Array α} {i : Nat} {x : α} (h : xs[i]? = some x)
    (y : α) : (xs.push y)[i]? = some x := by
  have hlt : i < xs.size := (Array.getElem?_eq_some_iff.mp h).1
  rw [Array.getElem?_push_lt hlt, ← Array.getElem?_eq_getElem hlt, h]

namespace Within

theorem refl (a : Arena) : a.Within a := ⟨id, id, id, Nat.le_refl _⟩

theorem trans {a b c : Arena} (h : a.Within b) (h' : b.Within c) : a.Within c where
  node hi := h'.node (h.node hi)
  span hi := h'.span (h.span hi)
  literal hi := h'.literal (h.literal hi)
  size := Nat.le_trans h.size h'.size

theorem push (a : Arena) (node : Node) (span : Span) : a.Within (a.push node span) where
  node hi := getElem?_push_of_some hi _
  span hi := getElem?_push_of_some hi _
  literal hi := hi
  size := by simp [Arena.push]

theorem pushFunction (a : Arena) (decl : FunctionDecl) : a.Within (a.pushFunction decl) where
  node hi := getElem?_push_of_some hi _
  span hi := getElem?_push_of_some hi _
  literal hi := getElem?_push_of_some hi _
  size := by simp [Arena.pushFunction]

end Within

/-- What a table keeps when nodes are added to it one by one. -/
structure Kept (P : Arena → Prop) : Prop where
  push (a : Arena) (node : Node) (span : Span) :
    (∀ number, node ≠ .function number) → P a → P (a.push node span)
  pushFunction (a : Arena) (decl : FunctionDecl) : P a → P (a.pushFunction decl)

end Arena

variable {P : Arena → Prop}

mutual

theorem Expr.keep (h : Arena.Kept P) : (e : Expr) → (a : Arena) → P a → P (e.place a)
  | .atom _ _, _, ha => h.push _ _ _ nofun ha
  | .group e _, a, ha | .unary _ e _, a, ha | .attr e _ _, a, ha =>
    h.push _ _ _ nofun (e.keep h a ha)
  | .sequence es _, a, ha | .list es _, a, ha => h.push _ _ _ nofun (keepAll h es a ha)
  | .binary _ l r _, a, ha | .logic _ l r _, a, ha | .subscript l r _, a, ha =>
    h.push _ _ _ nofun (r.keep h _ (l.keep h a ha))
  | .assign _ target value _, a, ha =>
    h.push _ _ _ nofun (value.keep h _ (target.keep h a ha))
  | .call e es _, a, ha | .create e es _, a, ha =>
    h.push _ _ _ nofun (keepAll h es _ (e.keep h a ha))
  | .function decl, a, ha => h.pushFunction a decl ha
  | .dict entries _, a, ha => h.push _ _ _ nofun (keepEntries h entries a ha)

theorem Target.keep (h : Arena.Kept P) : (t : Target) → (a : Arena) → P a → P (t.place a).1
  | .var _, _, ha => h.push _ _ _ nofun ha
  | .attr object _ _, a, ha => h.push _ _ _ nofun (object.keep h a ha)
  | .subscript object index _, a, ha =>
    h.push _ _ _ nofun (index.keep h _ (object.keep h a ha))

theorem keepAll (h : Arena.Kept P) : (es : List Expr) → (a : Arena) → P a → P (placeAll a es).1
  | [], _, ha => ha
  | e :: es, a, ha => keepAll h es _ (e.keep h a ha)

theorem keepEntries (h : Arena.Kept P) : (es : List (Expr × Expr)) → (a : Arena) → P a →
    P (placeEntries a es).1
  | [], _, ha => ha
  | (key, value) :: es, a, ha => keepEntries h es _ (value.keep h _ (key.keep h a ha))

end

/-! ### Nodes that are already there -/

theorem Arena.Within.kept (a : Arena) : Arena.Kept a.Within where
  push b node span _ h := h.trans (.push b node span)
  pushFunction b decl h := h.trans (.pushFunction b decl)

theorem Expr.within_place (a : Arena) (e : Expr) : a.Within (e.place a) :=
  e.keep (Arena.Within.kept a) a (.refl a)

theorem Target.within_place (a : Arena) (t : Target) : a.Within (t.place a).1 :=
  t.keep (Arena.Within.kept a) a (.refl a)

theorem within_placeAll (a : Arena) (es : List Expr) : a.Within (placeAll a es).1 :=
  keepAll (Arena.Within.kept a) es a (.refl a)

theorem within_placeEntries (a : Arena) (es : List (Expr × Expr)) :
    a.Within (placeEntries a es).1 :=
  keepEntries (Arena.Within.kept a) es a (.refl a)

/-- What is placed first is within what is placed last. -/
theorem within_of_push {b c : Arena} {node : Node} {span : Span}
    (h : (b.push node span).Within c) : b.Within c :=
  (Arena.Within.push b node span).trans h

/-! ### Nodes and places -/

namespace Arena

/-- There are as many places as nodes, so that they have the same numbers. -/
class Paired (a : Arena) : Prop where
  size : a.nodes.size = a.spans.size

variable {a : Arena} [a.Paired]

instance : Paired empty := ⟨rfl⟩

instance {node : Node} {span : Span} : (a.push node span).Paired where
  size := by simp [push, Paired.size]

instance {decl : FunctionDecl} : (a.pushFunction decl).Paired where
  size := by simp [pushFunction, Paired.size]

theorem Paired.kept : Kept Paired where
  push _ _ _ _ _ := inferInstance
  pushFunction _ _ _ := inferInstance

instance {e : Expr} : (e.place a).Paired := e.keep Paired.kept a inferInstance

instance {t : Target} : (t.place a).1.Paired := t.keep Paired.kept a inferInstance

instance {es : List Expr} : (placeAll a es).1.Paired := keepAll Paired.kept es a inferInstance

instance {es : List (Expr × Expr)} : (placeEntries a es).1.Paired :=
  keepEntries Paired.kept es a inferInstance

theorem node?_last_push (a : Arena) (node : Node) (span : Span) :
    (a.push node span).node? (a.push node span).last = some node := by
  simp [push, node?, last]

/-- The place of a node has the number of it, as there was a place for each node before. -/
theorem span?_last_push (a : Arena) [a.Paired] (node : Node) (span : Span) :
    (a.push node span).span? (a.push node span).last = some span := by
  simp [push, span?, last, Paired.size]

end Arena

/-- In the table of an expression every node has a place. -/
theorem Expr.paired_arena (e : Expr) : e.arena.Paired := inferInstanceAs (e.place .empty).Paired

end Rill.Syntax
