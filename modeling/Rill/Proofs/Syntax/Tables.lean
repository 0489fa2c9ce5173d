import Rill.Proofs.Syntax.Arena

/-! The table of an expression is a tree, up to the nodes that became targets of assignments. -/
namespace Rill.Syntax

open Text (Span)

/-! ### References -/

def TargetNode.refs : TargetNode → List Nat
  | .var _ => []
  | .attr object _ => [object]
  | .subscript object index => [object, index]

namespace Node

/-- The numbers of the operands of a node. -/
def refs : Node → List Nat
  | atom _ _ | function _ => []
  | group inner => [inner]
  | sequence parts => parts
  | unary _ operand => [operand]
  | binary _ lhs rhs | logic _ lhs rhs => [lhs, rhs]
  | assign _ target value => target.refs ++ [value]
  | call callee arguments => callee :: arguments
  | create type arguments => type :: arguments
  | subscript object index => [object, index]
  | attr object _ => [object]
  | list elements => elements
  | dict entries => entries.flatMap fun (key, value) => [key, value]

/-- The nodes that can be assigned to, and what they become then. -/
inductive Becomes : Node → TargetNode → Prop
  | var (name : String) (span : Span) : Becomes (.atom (.var name) span) (.var ⟨name, span⟩)
  | attr (object : Nat) (name : Ident) : Becomes (.attr object name) (.attr object name)
  | subscript (object index : Nat) : Becomes (.subscript object index) (.subscript object index)

/-- What a node assigns to. -/
def written? : Node → Option TargetNode
  | assign _ target _ => some target
  | _ => none

theorem becomes_iff {node : Node} {target : TargetNode} :
    node.Becomes target ↔ node.target? = some target := by
  constructor
  · rintro (_ | _ | _) <;> rfl
  · intro h
    unfold target? at h
    split at h <;> cases h <;> constructor

theorem refs_of_target? {node : Node} {target : TargetNode} (h : node.target? = some target) :
    node.refs = target.refs := by
  unfold target? at h
  split at h <;> cases h <;> rfl

theorem written?_of_target? {node : Node} {target : TargetNode} (h : node.target? = some target) :
    node.written? = none := by
  unfold target? at h
  split at h <;> cases h <;> rfl

end Node

namespace Arena

-- A path says which operand to go to at each step.
mutual

/-- From the node `k` a path leads to the node `m`. -/
inductive Leads (c : Arena) : Nat → List Nat → Nat → Prop
  | here {k} : Leads c k [] k
  | down {k node path m} : c.node? k = some node → LeadsFrom c node.refs path m → Leads c k path m

/-- The first step of the path is to one of these nodes. -/
inductive LeadsFrom (c : Arena) : List Nat → List Nat → Nat → Prop
  | head {r rs path m} : Leads c r path m → LeadsFrom c (r :: rs) (0 :: path) m
  | tail {r rs n path m} : LeadsFrom c rs (n :: path) m → LeadsFrom c (r :: rs) ((n + 1) :: path) m

end

/-- Some path leads from the root to the node. -/
def Reached (c : Arena) (root m : Nat) : Prop := ∃ path, c.Leads root path m

/-- A table is a tree with its root last, and beside it there are only nodes that were turned into
targets of assignments. -/
structure WellFormed (c : Arena) (root : Nat) : Prop where
  /-- Every node has a place. -/
  spans : c.nodes.size = c.spans.size
  last : root + 1 = c.nodes.size
  refs_lt {k r : Nat} {node : Node} : c.node? k = some node → r ∈ node.refs → r < k
  /-- What is not reached is what an assignment after it writes to. -/
  strays {m : Nat} : m < c.nodes.size → ¬ c.Reached root m → ∃ node target k assignment,
    c.node? m = some node ∧ node.Becomes target ∧
      m < k ∧ c.node? k = some assignment ∧ assignment.written? = some target
  /-- What an assignment writes to has been read as a node before it, which is not reached. -/
  targets {k : Nat} {assignment : Node} {target : TargetNode} : c.node? k = some assignment →
    assignment.written? = some target →
      ∃ m node, m < k ∧ c.node? m = some node ∧ node.Becomes target ∧ ¬ c.Reached root m
  paths {m : Nat} {path path' : List Nat} :
    c.Leads root path m → c.Leads root path' m → path = path'
  /-- A path from the root is no longer than the table, and what it leads to is found there. -/
  walks {m : Nat} {path : List Nat} : c.Leads root path m →
    path.length + m ≤ root ∧ ∃ node span, c.node? m = some node ∧ c.span? m = some span
  literals {k number : Nat} : c.node? k = some (.function number) →
    c.Reached root k ∧ number < c.functions.size
  /-- Every function literal stands in exactly one node. -/
  functions {number : Nat} : number < c.functions.size →
    ∃ k, c.node? k = some (.function number) ∧
      ∀ k', c.node? k' = some (.function number) → k' = k

/-! ### Rows of trees -/

/-- The nodes from `s` up to `e` are trees one after another, with the roots `rs`, and between them
nodes that were turned into the targets `ts`. -/
inductive Row (c : Arena) : (s : Nat) → (ts : List TargetNode) → (rs : List Nat) → (e : Nat) → Prop
  | nil {s} : Row c s [] [] s
  | stray {q node target ts rs e} : c.node? q = some node → node.target? = some target →
      (∀ r ∈ node.refs, r < q) → Row c (q + 1) ts rs e → Row c q (target :: ts) rs e
  | tree {s node r ts rs e} : Row c s node.written?.toList node.refs r → c.node? r = some node →
      Row c (r + 1) ts rs e → Row c s ts (r :: rs) e

theorem exists_leadsFrom {c : Arena} {r : Nat} {rs : List Nat} (h : r ∈ rs) :
    ∃ path, c.LeadsFrom rs path r := by
  induction h with
  | head => exact ⟨[0], .head .here⟩
  | tail _ _ ih =>
    obtain ⟨path, hpath⟩ := ih
    cases hpath with
    | head h => exact ⟨_, .tail (.head h)⟩
    | tail h => exact ⟨_, .tail (.tail h)⟩

namespace Row

variable {c : Arena} {s e m k : Nat} {ts : List TargetNode} {rs path path' : List Nat}

theorem le (h : c.Row s ts rs e) : s ≤ e := by
  induction h with
  | nil => exact Nat.le_refl _
  | stray _ _ _ _ ih => omega
  | tree _ _ _ ih ih' => omega

/-- A path does not leave the row, and it goes towards the start of it. -/
theorem leads (h : c.Row s ts rs e) (hm : c.LeadsFrom rs path m) :
    s ≤ m ∧ path.length + m ≤ e := by
  induction h generalizing path with
  | nil => cases hm
  | stray _ _ _ _ ih =>
    have hle := ih hm
    omega
  | tree hinner hnode hrest ih ih' =>
    have hle := hinner.le
    have hle' := hrest.le
    cases hm with
    | head hm =>
      cases hm with
      | here => simp; omega
      | down hnode' hm =>
        obtain rfl := Option.some.inj (hnode.symm.trans hnode')
        have hpath := ih hm
        simp only [List.length_cons]
        omega
    | tail hm =>
      have hpath := ih' hm
      simp only [List.length_cons] at hpath ⊢
      omega

theorem lt_of_leads (h : c.Row s ts rs e) (hm : c.LeadsFrom rs path m) : m < e := by
  have hle := h.leads hm
  cases hm <;> simp only [List.length_cons] at hle <;> omega

/-- Within a row there is one way to each node at most. -/
theorem paths (h : c.Row s ts rs e) (hm : c.LeadsFrom rs path m) (hm' : c.LeadsFrom rs path' m) :
    path = path' := by
  induction h generalizing path path' with
  | nil => cases hm
  | stray _ _ _ _ ih => exact ih hm hm'
  | @tree s node r ts rs e hinner hnode hrest ih ih' =>
    -- what is below the first root comes before it, and what is below the others after it
    have hbefore {path m} (h : c.Leads r path m) : m ≤ r := by
      cases h with
      | here => exact Nat.le_refl _
      | down hnode' h =>
        obtain rfl := Option.some.inj (hnode.symm.trans hnode')
        exact Nat.le_of_lt (hinner.lt_of_leads h)
    cases hm with
    | head hm =>
      cases hm' with
      | head hm' =>
        cases hm with
        | here =>
          cases hm' with
          | here => rfl
          | down hnode' hm' =>
            obtain rfl := Option.some.inj (hnode.symm.trans hnode')
            exact absurd (hinner.lt_of_leads hm') (Nat.lt_irrefl _)
        | down hnode' hm =>
          obtain rfl := Option.some.inj (hnode.symm.trans hnode')
          cases hm' with
          | here => exact absurd (hinner.lt_of_leads hm) (Nat.lt_irrefl _)
          | down hnode' hm' =>
            obtain rfl := Option.some.inj (hnode.symm.trans hnode')
            rw [ih hm hm']
      | tail hm' =>
        have hle := hbefore hm
        have hlt := hrest.leads hm'
        omega
    | tail hm =>
      cases hm' with
      | head hm' =>
        have hle := hbefore hm'
        have hlt := hrest.leads hm
        omega
      | tail hm' =>
        obtain ⟨rfl, rfl⟩ := List.cons.inj (ih' hm hm')
        rfl

/-- Operands come before the operator. -/
theorem refs_lt (h : c.Row s ts rs e) (hs : s ≤ k) (he : k < e) {node : Node}
    (hnode : c.node? k = some node) {r : Nat} (hr : r ∈ node.refs) : r < k := by
  induction h with
  | nil => omega
  | @stray q _ _ _ _ _ hnode' _ hrefs _ ih =>
    rcases Nat.lt_or_eq_of_le hs with hlt | rfl
    · exact ih hlt he
    · obtain rfl := Option.some.inj (hnode.symm.trans hnode')
      exact hrefs r hr
  | @tree _ _ root _ _ _ hinner hnode' _ ih ih' =>
    rcases Nat.lt_trichotomy k root with hlt | rfl | hgt
    · exact ih hs hlt
    · obtain rfl := Option.some.inj (hnode.symm.trans hnode')
      obtain ⟨path, hpath⟩ := exists_leadsFrom hr
      exact hinner.lt_of_leads hpath
    · exact ih' hgt he

/-- Every node of a row is in one of its trees, unless it was turned into a target. -/
theorem covers (h : c.Row s ts rs e) (hs : s ≤ m) (he : m < e) :
    (∃ path, c.LeadsFrom rs path m) ∨ ∃ node target, c.node? m = some node ∧
      node.target? = some target ∧ (target ∈ ts ∨ ∃ k assignment, m < k ∧
        c.node? k = some assignment ∧ assignment.written? = some target) := by
  induction h with
  | nil => omega
  | @stray q node target _ _ _ hnode htarget _ _ ih =>
    rcases Nat.lt_or_eq_of_le hs with hlt | rfl
    · refine (ih hlt he).imp_right ?_
      rintro ⟨node, target, hnode, htarget, hmem | hwritten⟩
      · exact ⟨node, target, hnode, htarget, .inl (.tail _ hmem)⟩
      · exact ⟨node, target, hnode, htarget, .inr hwritten⟩
    · exact .inr ⟨node, target, hnode, htarget, .inl (.head _)⟩
  | @tree _ root r _ _ _ _ hroot _ ih ih' =>
    rcases Nat.lt_trichotomy m r with hlt | rfl | hgt
    · rcases ih hs hlt with ⟨path, hpath⟩ | ⟨node, target, hnode, htarget, hmem | hwritten⟩
      · exact .inl ⟨_, .head (.down hroot hpath)⟩
      · exact .inr ⟨node, target, hnode, htarget, .inr ⟨r, root, hlt, hroot, by simpa using hmem⟩⟩
      · exact .inr ⟨node, target, hnode, htarget, .inr hwritten⟩
    · exact .inl ⟨[0], .head .here⟩
    · refine (ih' hgt he).imp_left ?_
      rintro ⟨path, hpath⟩
      cases hpath with
      | head hm => exact ⟨_, .tail (.head hm)⟩
      | tail hm => exact ⟨_, .tail (.tail hm)⟩

/-- A node before the first root is below it or below none. -/
theorem not_leads_inner {node : Node} {r : Nat} (hnode : c.node? r = some node)
    (hrest : c.Row (r + 1) ts rs e) (hm : m < r) (h : ∀ path, ¬ c.LeadsFrom node.refs path m) :
    ¬ c.LeadsFrom (r :: rs) path m := by
  rintro (hm' | hm')
  · cases hm' with
    | here => omega
    | down hnode' hm' =>
      obtain rfl := Option.some.inj (hnode.symm.trans hnode')
      exact h _ hm'
  · have hle := hrest.leads hm'
    omega

theorem not_leads_rest {node : Node} {r : Nat} {us : List TargetNode}
    (hinner : c.Row s us node.refs r) (hnode : c.node? r = some node) (hm : r < m)
    (h : ∀ path, ¬ c.LeadsFrom rs path m) : ¬ c.LeadsFrom (r :: rs) path m := by
  rintro (hm' | hm')
  · cases hm' with
    | here => omega
    | down hnode' hm' =>
      obtain rfl := Option.some.inj (hnode.symm.trans hnode')
      have hlt := hinner.lt_of_leads hm'
      omega
  · exact h _ hm'

/-- What was turned into a target of the row is in none of its trees. -/
theorem targets (h : c.Row s ts rs e) {target : TargetNode} (ht : target ∈ ts) :
    ∃ m node, s ≤ m ∧ m < e ∧ c.node? m = some node ∧ node.target? = some target ∧
      ∀ path, ¬ c.LeadsFrom rs path m := by
  induction h with
  | nil => cases ht
  | @stray q node _ _ _ _ hnode htarget _ hrest ih =>
    have hle := hrest.le
    rcases List.mem_cons.mp ht with rfl | ht
    · refine ⟨q, node, Nat.le_refl q, hle, hnode, htarget, fun path hpath => ?_⟩
      have hlt := hrest.leads hpath
      omega
    · obtain ⟨m, node, hs, he, hm⟩ := ih ht
      exact ⟨m, node, by omega, he, hm⟩
  | tree hinner hnode _ _ ih' =>
    obtain ⟨m, node, hs, he, hm, htarget, hpath⟩ := ih' ht
    have hle := hinner.le
    exact ⟨m, node, by omega, he, hm, htarget, fun _ => not_leads_rest hinner hnode hs hpath⟩

/-- What an assignment in the row writes to is in none of its trees. -/
theorem written (h : c.Row s ts rs e) (hs : s ≤ k) (he : k < e) {assignment : Node}
    (hk : c.node? k = some assignment) {target : TargetNode}
    (ht : assignment.written? = some target) :
    ∃ m node, s ≤ m ∧ m < k ∧ c.node? m = some node ∧ node.target? = some target ∧
      ∀ path, ¬ c.LeadsFrom rs path m := by
  induction h with
  | nil => omega
  | @stray q node _ _ _ _ hnode htarget _ hrest ih =>
    rcases Nat.lt_or_eq_of_le hs with hlt | rfl
    · obtain ⟨m, node, hs, hm⟩ := ih hlt he
      exact ⟨m, node, by omega, hm⟩
    · obtain rfl := Option.some.inj (hk.symm.trans hnode)
      rw [Node.written?_of_target? htarget] at ht
      cases ht
  | @tree _ root r _ _ _ hinner hroot hrest ih ih' =>
    have hle := hinner.le
    rcases Nat.lt_trichotomy k r with hlt | rfl | hgt
    · obtain ⟨m, node, hs, hm, hnode, htarget, hpath⟩ := ih hs hlt
      exact ⟨m, node, hs, hm, hnode, htarget, fun _ =>
        not_leads_inner hroot hrest (by omega) hpath⟩
    · obtain rfl := Option.some.inj (hk.symm.trans hroot)
      obtain ⟨m, node, hs, hm, hnode, htarget, hpath⟩ := hinner.targets (by rw [ht]; exact .head _)
      exact ⟨m, node, hs, hm, hnode, htarget, fun _ => not_leads_inner hroot hrest hm hpath⟩
    · obtain ⟨m, node, hs, hm, hnode, htarget, hpath⟩ := ih' hgt he
      exact ⟨m, node, by omega, hm, hnode, htarget, fun _ =>
        not_leads_rest hinner hroot hs hpath⟩

theorem append {us : List TargetNode} {rs' : List Nat} (h : c.Row s ts rs m)
    (h' : c.Row m us rs' e) : c.Row s (ts ++ us) (rs ++ rs') e := by
  induction h with
  | nil => exact h'
  | stray hnode htarget hrefs _ ih => exact .stray hnode htarget hrefs (ih h')
  | tree hinner hnode _ _ ih => exact .tree hinner hnode (ih h')

/-- A node that is turned into a target takes its operands with it. -/
theorem leave {node : Node} {target : TargetNode} (h : c.Row s [] target.refs e)
    (hnode : c.node? e = some node) (ht : node.target? = some target) :
    c.Row s [target] target.refs (e + 1) := by
  have hrefs (r : Nat) (hr : r ∈ node.refs) : r < e := by
    rw [Node.refs_of_target? ht] at hr
    obtain ⟨path, hpath⟩ := exists_leadsFrom hr
    exact h.lt_of_leads hpath
  have hrow := h.append (.stray hnode ht hrefs .nil)
  rwa [List.append_nil] at hrow

end Row

/-! ### Rows of expressions -/

variable {a b c : Arena} {node : Node} {span : Span}

theorem node?_of_within (h : (b.push node span).Within c) : c.node? b.nodes.size = some node :=
  h.node (by simp [push, node?])

/-- The node of a function literal is one like any other. -/
theorem push_within_pushFunction (a : Arena) (decl : FunctionDecl) :
    (a.push (.function a.functions.size) decl.span).Within (a.pushFunction decl) where
  node hi := hi
  span hi := hi
  literal hi := (Within.pushFunction a decl).literal hi
  size := Nat.le_refl _

theorem size_push (a : Arena) (node : Node) (span : Span) :
    (a.push node span).nodes.size = a.nodes.size + 1 := Array.size_push _

theorem size_pushFunction (a : Arena) (decl : FunctionDecl) :
    (a.pushFunction decl).nodes.size = a.nodes.size + 1 := Array.size_push _

/-- A node after its operands is the root of a tree. -/
theorem Row.push {s : Nat} (h : c.Row s node.written?.toList node.refs b.nodes.size)
    (hb : (b.push node span).Within c) :
    c.Row s [] [(b.push node span).last] (b.push node span).nodes.size := by
  rw [last, size_push]
  exact .tree h (node?_of_within hb) .nil

end Arena

open Arena (Row)

mutual

theorem Expr.row_place (c : Arena) : (e : Expr) → (a : Arena) → (e.place a).Within c →
    Row c a.nodes.size [] [(e.place a).last] (e.place a).nodes.size
  | .atom _ _, _, h => .push .nil h
  | .group inner _, a, h => .push (inner.row_place c a (within_of_push h)) h
  | .sequence parts _, a, h => .push (row_placeAll c parts a (within_of_push h)) h
  | .unary _ operand _, a, h => .push (operand.row_place c a (within_of_push h)) h
  | .binary _ lhs rhs _, a, h | .logic _ lhs rhs _, a, h => by
    have hr := rhs.row_place c (lhs.place a) (within_of_push h)
    have hl := lhs.row_place c a ((rhs.within_place _).trans (within_of_push h))
    exact .push (hl.append hr) h
  | .assign _ target value _, a, h => by
    have hvalue := value.row_place c (target.place a).1 (within_of_push h)
    have htarget := target.row_place c a ((value.within_place _).trans (within_of_push h))
    exact .push (htarget.append hvalue) h
  | .call callee arguments _, a, h => by
    have harguments := row_placeAll c arguments (callee.place a) (within_of_push h)
    have hcallee := callee.row_place c a ((within_placeAll _ arguments).trans (within_of_push h))
    exact .push (hcallee.append harguments) h
  | .create type arguments _, a, h => by
    have harguments := row_placeAll c arguments (type.place a) (within_of_push h)
    have htype := type.row_place c a ((within_placeAll _ arguments).trans (within_of_push h))
    exact .push (htype.append harguments) h
  | .subscript object index _, a, h => by
    have hindex := index.row_place c (object.place a) (within_of_push h)
    have hobject := object.row_place c a ((index.within_place _).trans (within_of_push h))
    exact .push (hobject.append hindex) h
  | .attr object _ _, a, h => .push (object.row_place c a (within_of_push h)) h
  | .function decl, a, h => .push .nil ((Arena.push_within_pushFunction a decl).trans h)
  | .list elements _, a, h => .push (row_placeAll c elements a (within_of_push h)) h
  | .dict entries _, a, h => .push (row_placeEntries c entries a (within_of_push h)) h

theorem Target.row_place (c : Arena) : (t : Target) → (a : Arena) → (t.place a).1.Within c →
    Row c a.nodes.size [(t.place a).2] (t.place a).2.refs (t.place a).1.nodes.size
  | .var _, a, h => by
    have hrow : Row c a.nodes.size [] [] a.nodes.size := .nil
    simpa [Target.place, Arena.push] using hrow.leave (Arena.node?_of_within h) rfl
  | .attr object _ _, a, h => by
    have hrow := object.row_place c a (within_of_push h)
    simpa [Target.place, Arena.push] using hrow.leave (Arena.node?_of_within h) rfl
  | .subscript object index _, a, h => by
    have hindex := index.row_place c (object.place a) (within_of_push h)
    have hobject := object.row_place c a ((index.within_place _).trans (within_of_push h))
    have hrow := hobject.append hindex
    simpa [Target.place, Arena.push] using hrow.leave (Arena.node?_of_within h) rfl

theorem row_placeAll (c : Arena) : (es : List Expr) → (a : Arena) → (placeAll a es).1.Within c →
    Row c a.nodes.size [] (placeAll a es).2 (placeAll a es).1.nodes.size
  | [], _, _ => .nil
  | e :: es, a, h => by
    have hes := row_placeAll c es (e.place a) h
    have he := e.row_place c a ((within_placeAll _ es).trans h)
    exact he.append hes

theorem row_placeEntries (c : Arena) : (es : List (Expr × Expr)) → (a : Arena) →
    (placeEntries a es).1.Within c →
    Row c a.nodes.size [] ((placeEntries a es).2.flatMap fun (key, value) => [key, value])
      (placeEntries a es).1.nodes.size
  | [], _, _ => .nil
  | (key, value) :: es, a, h => by
    have hes := row_placeEntries c es (value.place (key.place a)) h
    have hvalue := value.row_place c (key.place a) ((within_placeEntries _ es).trans h)
    have hkey := key.row_place c a
      ((value.within_place _).trans ((within_placeEntries _ es).trans h))
    exact hkey.append (hvalue.append hes)

end

/-! ### Function literals -/

namespace Arena

/-- Function literals are numbered, and each number stands in one node. -/
structure Numbered (c : Arena) : Prop where
  lt {k number : Nat} : c.node? k = some (.function number) → number < c.functions.size
  once {number : Nat} : number < c.functions.size →
    ∃ k, c.node? k = some (.function number) ∧
      ∀ k', c.node? k' = some (.function number) → k' = k

theorem numbered_empty : empty.Numbered where
  lt h := by simp [node?, empty] at h
  once h := by simp [empty] at h

theorem node?_push (a : Arena) (node : Node) (span : Span) (k : Nat) :
    (a.push node span).node? k = if k = a.nodes.size then some node else a.node? k := by
  rw [node?, push, Array.getElem?_push]
  split <;> rfl

theorem lt_of_node? {a : Arena} {k : Nat} {node : Node} (h : a.node? k = some node) :
    k < a.nodes.size :=
  (Array.getElem?_eq_some_iff.mp h).1

theorem Numbered.push {a : Arena} (h : a.Numbered) (node : Node) (span : Span)
    (hnode : ∀ number, node ≠ .function number) : (a.push node span).Numbered := by
  have hold (k number : Nat) : (a.push node span).node? k = some (.function number) ↔
      a.node? k = some (.function number) := by
    rw [node?_push]
    split
    next hk =>
      refine ⟨fun heq => absurd (Option.some.inj heq) (hnode number), fun heq => ?_⟩
      exact absurd hk (Nat.ne_of_lt (lt_of_node? heq))
    next => exact Iff.rfl
  constructor
  · intro k number hk
    exact h.lt ((hold k number).mp hk)
  · intro number hlt
    obtain ⟨k, hk, hall⟩ := h.once hlt
    exact ⟨k, (hold k number).mpr hk, fun k' hk' => hall k' ((hold k' number).mp hk')⟩

theorem Numbered.pushFunction {a : Arena} (h : a.Numbered) (decl : FunctionDecl) :
    (a.pushFunction decl).Numbered := by
  have hnode (k : Nat) : (a.pushFunction decl).node? k =
      if k = a.nodes.size then some (.function a.functions.size) else a.node? k :=
    node?_push a _ decl.span k
  have hsize : (a.pushFunction decl).functions.size = a.functions.size + 1 := Array.size_push _
  constructor
  · intro k number hk
    rw [hnode] at hk
    split at hk
    next =>
      cases hk
      omega
    next =>
      have hlt := h.lt hk
      omega
  · intro number hlt
    by_cases hnumber : number = a.functions.size
    · subst hnumber
      refine ⟨a.nodes.size, by rw [hnode, if_pos rfl], fun k hk => ?_⟩
      rw [hnode] at hk
      split at hk
      next heq => exact heq
      next => exact absurd (h.lt hk) (Nat.lt_irrefl _)
    · have hlt : number < a.functions.size := by omega
      obtain ⟨k, hk, hall⟩ := h.once hlt
      have hne := Nat.ne_of_lt (lt_of_node? hk)
      refine ⟨k, by rw [hnode, if_neg hne, hk], fun k' hk' => ?_⟩
      rw [hnode] at hk'
      split at hk'
      next =>
        cases hk'
        exact absurd rfl hnumber
      next => exact hall k' hk'

theorem numbered_arena (e : Expr) : e.arena.Numbered :=
  e.keep ⟨fun _ node span hnode h => h.push node span hnode, fun _ decl h => h.pushFunction decl⟩
    empty numbered_empty

/-! ### Whole tables -/

theorem exists_node? {c : Arena} {k : Nat} (h : k < c.nodes.size) : ∃ node, c.node? k = some node :=
  ⟨c.nodes[k], Array.getElem?_eq_getElem h⟩

theorem exists_span? {c : Arena} {k : Nat} (h : k < c.spans.size) : ∃ span, c.span? k = some span :=
  ⟨c.spans[k], Array.getElem?_eq_getElem h⟩

/-- A single tree that no target is left beside ends with its root. -/
theorem Row.root_last {c : Arena} {s root e : Nat} (h : c.Row s [] [root] e) : root + 1 = e := by
  cases h with
  | tree _ _ hrest =>
    cases hrest
    rfl

/-- A tree whose function literals are numbered is a table as it should be. -/
theorem Row.wellFormed {c : Arena} {root : Nat} (h : c.Row 0 [] [root] c.nodes.size)
    (hp : c.Paired) (hn : c.Numbered) : c.WellFormed root := by
  have hleads {path : List Nat} {m : Nat} (hm : c.Leads root path m) :
      c.LeadsFrom [root] (0 :: path) m := .head hm
  -- what is not reached is turned into a target, of which there is none left over
  have hstrays {m : Nat} (hm : m < c.nodes.size) (hnot : ¬ c.Reached root m) : ∃ node target,
      c.node? m = some node ∧ node.target? = some target ∧ ∃ k assignment, m < k ∧
        c.node? k = some assignment ∧ assignment.written? = some target := by
    rcases h.covers (Nat.zero_le m) hm with ⟨path, hpath⟩ | ⟨node, target, hnode, ht, hmem | hk⟩
    · cases hpath with
      | head hpath => exact absurd ⟨_, hpath⟩ hnot
      | tail hpath => cases hpath
    · cases hmem
    · exact ⟨node, target, hnode, ht, hk⟩
  refine ⟨hp.size, h.root_last, ?_, ?_, ?_, ?_, ?_, ?_, hn.once⟩
  · intro k r node hk hr
    exact h.refs_lt (Nat.zero_le k) (lt_of_node? hk) hk hr
  · intro m hm hnot
    obtain ⟨node, target, hnode, ht, k, assignment, hk⟩ := hstrays hm hnot
    exact ⟨node, target, k, assignment, hnode, Node.becomes_iff.mpr ht, hk⟩
  · intro k assignment target hk ht
    obtain ⟨m, node, -, hm, hnode, htarget, hpath⟩ :=
      h.written (Nat.zero_le k) (lt_of_node? hk) hk ht
    exact ⟨m, node, hm, hnode, Node.becomes_iff.mpr htarget,
      fun ⟨path, hm⟩ => hpath _ (hleads hm)⟩
  · intro m path path' hm hm'
    exact (List.cons.inj (h.paths (hleads hm) (hleads hm'))).2
  · intro m path hm
    have hroot := h.root_last
    have hle := (h.leads (hleads hm)).2
    rw [List.length_cons] at hle
    have hlt : m < c.nodes.size := by omega
    obtain ⟨node, hnode⟩ := exists_node? hlt
    obtain ⟨span, hspan⟩ := exists_span? (hp.size ▸ hlt)
    exact ⟨by omega, node, span, hnode, hspan⟩
  · intro k number hk
    refine ⟨?_, hn.lt hk⟩
    refine Classical.byContradiction fun hnot => ?_
    obtain ⟨node, target, hnode, ht, -⟩ := hstrays (lt_of_node? hk) hnot
    obtain rfl := Option.some.inj (hk.symm.trans hnode)
    cases ht

theorem wellFormed (e : Expr) : e.arena.WellFormed e.arena.last := by
  have hrow := e.row_place e.arena empty (.refl _)
  exact Row.wellFormed hrow e.paired_arena (numbered_arena e)

end Arena
end Rill.Syntax
