import Rill.Proofs.Syntax.Nesting
import Rill.Syntax.Tracking

/-! The walk that keeps track of its surroundings comes to what the check comes to, and leaves the
surroundings as they were. -/
namespace Rill.Syntax

namespace Tracking

/-- How a walk ends that leaves its surroundings as they were. -/
def ended (verdict : Except PlacementError Unit) (c : Surroundings) :
    EStateM.Result PlacementError Surroundings Unit :=
  match verdict with
  | .ok _ => .ok () c
  | .error err => .error err c

/-- In all surroundings, a walk comes to what a check comes to, and leaves them as they were. -/
def Follows (walk : Tracking Unit) (check : Surroundings → Except PlacementError Unit) : Prop :=
  ∀ c, walk c = ended (check c) c

namespace Follows

variable {x y : Tracking Unit} {r q : Surroundings → Except PlacementError Unit}

theorem nothing : Follows (pure ()) fun _ => .ok () := fun _ => rfl

theorem seq (hx : Follows x r) (hy : Follows y q) :
    Follows (do x; y) fun c => (do r c; q c) := by
  intro c
  change EStateM.bind x (fun _ => y) c = ended (Except.bind (r c) fun _ => q c) c
  rw [EStateM.bind, hx c]
  cases r c with
  | error err => rfl
  | ok _ => exact hy c

theorem inLoop (h : Follows x r) : Follows (inLoop x) fun c => r c.loop := by
  intro c
  have hx : x { c with loops := c.loops + 1 } = ended (r c.loop) c.loop := h c.loop
  rw [Tracking.inLoop, hx]
  change _ = ended (r c.loop) c
  cases r c.loop <;> simp [ended, Surroundings.loop]

theorem inBody (h : Follows x r) (inner : Surroundings) :
    Follows (inBody inner x) fun _ => r inner := by
  intro c
  rw [Tracking.inBody, h inner]
  cases r inner <;> rfl

theorem test (test : Surroundings → Prop) [∀ c, Decidable (test c)] (err : PlacementError) :
    Follows (do if test (← get) then throw err) fun c => if test c then .error err else .ok () := by
  intro c
  change (if test c then throw err else pure () : Tracking Unit) c =
    ended (if test c then .error err else .ok ()) c
  split <;> rfl

theorem forM {α : Type} {f : α → Tracking Unit} {g : α → Surroundings → Except PlacementError Unit}
    {xs : List α} (h : ∀ a ∈ xs, Follows (f a) (g a)) :
    Follows (forM xs f) fun c => forM xs fun a => g a c := by
  induction xs with
  | nil => exact nothing
  | cons a xs ih =>
    obtain ⟨ha, hxs⟩ := List.forall_mem_cons.mp h
    exact seq ha (ih hxs)

end Follows
end Tracking

/-! ### Tables of expressions -/

/-- The checks of the literals in a table. -/
def Arena.check (a : Arena) : Except PlacementError Unit := forM a.functions.toList FunctionDecl.check

/-- One check after another, then a third. -/
theorem seq_assoc {x y z w : Except PlacementError Unit} (h : x = (do y; z)) :
    (do x; w) = (do y; z; w) := by
  rw [h, bind_assoc]

mutual

/-- The literals that an expression adds to a table are checked after those before them. -/
theorem Expr.check_place (a : Arena) :
    (e : Expr) → (e.place a).check = (do a.check; e.check)
  | .atom _ _ => by
    change a.check = _
    cases h : a.check <;> rfl
  | .group inner _ => Expr.check_place a inner
  | .sequence parts _ => check_placeAll a parts
  | .unary _ operand _ => Expr.check_place a operand
  | .binary _ lhs rhs _ | .logic _ lhs rhs _ =>
    (Expr.check_place (lhs.place a) rhs).trans (seq_assoc (Expr.check_place a lhs))
  | .assign _ target value _ =>
    (Expr.check_place (target.place a).1 value).trans (seq_assoc (Target.check_place a target))
  | .call callee arguments _ =>
    (check_placeAll (callee.place a) arguments).trans (seq_assoc (Expr.check_place a callee))
  | .create type arguments _ =>
    (check_placeAll (type.place a) arguments).trans (seq_assoc (Expr.check_place a type))
  | .subscript object index _ =>
    (Expr.check_place (object.place a) index).trans (seq_assoc (Expr.check_place a object))
  | .attr object _ _ => Expr.check_place a object
  | .function decl => by
    change forM (a.functions.push decl).toList FunctionDecl.check = _
    rw [Array.toList_push, List.forM_append, List.forM_cons, List.forM_nil, bind_pure]
    rfl
  | .list elements _ => check_placeAll a elements
  | .dict entries _ => check_placeEntries a entries

theorem Target.check_place (a : Arena) :
    (t : Target) → (t.place a).1.check = (do a.check; t.check)
  | .var _ => by
    change a.check = _
    cases h : a.check <;> rfl
  | .attr object _ _ => Expr.check_place a object
  | .subscript object index _ =>
    (Expr.check_place (object.place a) index).trans (seq_assoc (Expr.check_place a object))

theorem check_placeAll (a : Arena) :
    (es : List Expr) → (placeAll a es).1.check = (do a.check; checkExprs es)
  | [] => by
    change a.check = _
    cases h : a.check <;> rfl
  | e :: es => (check_placeAll (e.place a) es).trans (seq_assoc (Expr.check_place a e))

theorem check_placeEntries (a : Arena) :
    (es : List (Expr × Expr)) → (placeEntries a es).1.check = (do a.check; checkEntries es)
  | [] => by
    change a.check = _
    cases h : a.check <;> rfl
  | (key, value) :: es => by
    have hkey := seq_assoc (Expr.check_place a key) (w := do value.check; checkEntries es)
    have hvalue := seq_assoc (Expr.check_place (key.place a) value) (w := checkEntries es)
    exact (check_placeEntries (value.place (key.place a)) es).trans (hvalue.trans hkey)

end

/-- An expression is checked by the literals that its table lists. -/
theorem Expr.check_arena (e : Expr) : e.check = forM e.functions FunctionDecl.check :=
  (Expr.check_place Arena.empty e).symm

/-! ### The walk -/

open Tracking

mutual

theorem Expr.track_follows (e : Expr) : Follows e.track fun _ => e.check := by
  have hall : ∀ d ∈ e.functions.attach, Follows (FunctionDecl.track d.1) fun _ => d.1.check := by
    intro d _
    have hlt : sizeOf d.1 < sizeOf e := e.sizeOf_lt_of_mem_functions d.2
    exact d.1.track_follows
  have hcheck : forM e.functions.attach (fun d => d.1.check) = e.check := by
    rw [e.check_arena, ← List.forM_map, List.attach_map_subtype_val]
  rw [Expr.track, ← hcheck]
  exact .forM hall
termination_by sizeOf e

theorem FunctionDecl.track_follows : (decl : FunctionDecl) → Follows decl.track fun _ => decl.check
  | ⟨_, _, body, _⟩ => by
    rw [FunctionDecl.track]
    exact (trackAll_follows body).inBody .function
termination_by decl => sizeOf decl

theorem trackOption_follows : (e : Option Expr) → Follows (trackOption e) fun _ => checkOption e
  | none => by
    rw [trackOption]
    exact .nothing
  | some e => by
    rw [trackOption]
    exact e.track_follows
termination_by e => sizeOf e

theorem trackBranch_follows :
    (body : Option (List Stmt)) → Follows (trackBranch body) fun c => checkBranch c body
  | none => by
    rw [trackBranch]
    exact .nothing
  | some body => by
    rw [trackBranch]
    exact trackAll_follows body
termination_by body => sizeOf body

theorem trackAll_follows : (ss : List Stmt) → Follows (trackAll ss) fun c => checkAll c ss
  | [] => by
    rw [trackAll]
    exact .nothing
  | s :: ss => by
    rw [trackAll]
    exact .seq s.track_follows (trackAll_follows ss)
termination_by ss => sizeOf ss

theorem Stmt.track_follows : (s : Stmt) → Follows s.track fun c => s.check c
  | .functionDecl decl => by
    rw [Stmt.track]
    exact decl.track_follows
  | .moduleDecl _ body _ => by
    rw [Stmt.track]
    exact (trackAll_follows body).inBody .bare
  | .classDecl _ superclass body _ => by
    rw [Stmt.track]
    exact .seq (trackOption_follows superclass) ((trackAll_follows body).inBody .bare)
  | .block body _ => by
    rw [Stmt.track]
    exact trackAll_follows body
  | .includeFile _ _ => by
    rw [Stmt.track]
    exact .nothing
  | .expr value => by
    rw [Stmt.track]
    exact value.track_follows
  | .ifElse condition success failure _ => by
    rw [Stmt.track]
    exact .seq condition.track_follows
      (.seq (trackAll_follows success) (trackBranch_follows failure))
  | .loop condition body step _ _ => by
    rw [Stmt.track]
    exact .seq (trackOption_follows condition)
      (.seq (trackOption_follows step) (trackAll_follows body).inLoop)
  | .forEach _ iterable body _ => by
    rw [Stmt.track]
    exact .seq iterable.track_follows (trackAll_follows body).inLoop
  | .breakLoop span => by
    rw [Stmt.track]
    exact .test (fun c => c.loops = 0) ⟨.breakOutsideLoop, span⟩
  | .continueLoop span => by
    rw [Stmt.track]
    exact .test (fun c => c.loops = 0) ⟨.continueOutsideLoop, span⟩
  | .returnValue value span => by
    rw [Stmt.track]
    intro c
    change (if c.inFunction then trackOption value
      else throw ⟨.returnOutsideFunction, span⟩ : Tracking Unit) c =
        ended (if c.inFunction then checkOption value
          else .error ⟨.returnOutsideFunction, span⟩) c
    split
    · exact trackOption_follows value c
    · rfl
termination_by s => sizeOf s

end

theorem Program.track_eq_check (p : Program) : p.track = p.check := by
  have hwalk : trackAll p .bare = ended p.check .bare := trackAll_follows p .bare
  rw [Program.track, hwalk]
  cases p.check <;> rfl

/-- The check passes a program iff no statement is misplaced where it stands, at any depth and in
the literals of any expression. What it reports is the fault and the place of a misplaced statement.
The walk with a counter of loops finds the same, and every statement and expression leaves the
surroundings as they were, also where the walk stops. -/
theorem check_finds_misplaced (p : Program) :
    (p.check = .ok () ↔ ∀ around s err, p.Places around s → ¬ Misplaced around s err) ∧
    (∀ err, p.check = .error err →
      ∃ around s, p.Places around s ∧ Misplaced around s err ∧ err.span = s.span) ∧
    p.track = p.check ∧
    (∀ (s : Stmt) c, s.track c = ended (s.check c) c) ∧
    (∀ (e : Expr) c, e.track c = ended e.check c) :=
  ⟨p.check_eq_ok_iff, fun _ h => p.exists_misplaced h, p.track_eq_check, Stmt.track_follows,
    Expr.track_follows⟩

end Rill.Syntax
