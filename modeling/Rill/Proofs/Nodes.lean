import Rill.Eval.Nodes
import Rill.Proofs.Outcome
import Rill.Proofs.Syntax.Arena

/-! Every number in the table of an expression is that of a node, so that the table and the
expression have the same value. -/
namespace Rill.Syntax

open Eval
open Text (Span)

namespace Arena

variable {ev : Evaluator} {env : Nat} {c : Arena}

/-- The last node of a table is found in every table around it. -/
theorem evalAt_of_node {b : Arena} {node : Node} {span : Span} (hb : b.Within c)
    (hnode : b.node? b.last = some node) (hspan : b.span? b.last = some span) (depth : Nat) :
    c.evalAt ev env (depth + 1) b.last = evalNode ev env c (c.evalAt ev env depth) span node := by
  have hlook : c.lookUp b.last = pure (node, span) := by
    rw [lookUp, hb.node hnode, hb.span hspan]
  rw [evalAt, hlook]
  rfl

/-- Evaluating the last node of a table takes one level of depth. -/
theorem evalAt_push {b : Arena} [b.Paired] {node : Node} {span : Span}
    (hb : (b.push node span).Within c) {depth : Nat}
    (hd : (b.push node span).nodes.size ≤ depth) :
    ∃ d, b.nodes.size ≤ d ∧ c.evalAt ev env depth (b.push node span).last =
      evalNode ev env c (c.evalAt ev env d) span node := by
  have hsize : b.nodes.size + 1 ≤ depth := by simpa [push] using hd
  obtain ⟨d, rfl⟩ : ∃ d, depth = d + 1 := ⟨depth - 1, by omega⟩
  refine ⟨d, by omega, evalAt_of_node hb (node?_last_push b node span) ?_ d⟩
  exact span?_last_push b node span

end Arena

open Arena

mutual

/-- In every table that holds the nodes of an expression, the number of its last node stands for its
value. Numbers of operands are smaller, so the depth suffices. -/
theorem Expr.evalAt_place (ev : Evaluator) (env : Nat) (c : Arena) : (e : Expr) → (a : Arena) →
    [a.Paired] → (e.place a).Within c → ∀ {depth : Nat}, (e.place a).nodes.size ≤ depth →
      c.evalAt ev env depth (e.place a).last = e.eval ev env
  | .atom _ _, _, _, h, _, hd => by
    obtain ⟨d, -, heq⟩ := evalAt_push h hd
    exact heq
  | .group inner _, a, _, h, _, hd => by
    obtain ⟨d, hd, heq⟩ := evalAt_push h hd
    exact heq.trans (Expr.evalAt_place ev env c inner a (within_of_push h) hd)
  | .sequence parts _, a, _, h, _, hd => by
    obtain ⟨d, hd, heq⟩ := evalAt_push h hd
    exact heq.trans (foldlM_placeAll ev env c parts a (within_of_push h) hd .null)
  | .unary op operand span, a, _, h, _, hd => by
    obtain ⟨d, hd, heq⟩ := evalAt_push h hd
    have hv := Expr.evalAt_place ev env c operand a (within_of_push h) hd
    rw [Expr.place, heq, evalNode, hv, Expr.eval]
  | .binary op lhs rhs span, a, _, h, _, hd => by
    obtain ⟨d, hd, heq⟩ := evalAt_push h hd
    have hw := Expr.within_place (lhs.place a) rhs
    have hr := Expr.evalAt_place ev env c rhs _ (within_of_push h) hd
    have hl := Expr.evalAt_place ev env c lhs a (hw.trans (within_of_push h))
      (Nat.le_trans hw.size hd)
    rw [Expr.place, heq, evalNode, hl, hr, Expr.eval]
  | .logic op lhs rhs span, a, _, h, _, hd => by
    obtain ⟨d, hd, heq⟩ := evalAt_push h hd
    have hw := Expr.within_place (lhs.place a) rhs
    have hr := Expr.evalAt_place ev env c rhs _ (within_of_push h) hd
    have hl := Expr.evalAt_place ev env c lhs a (hw.trans (within_of_push h))
      (Nat.le_trans hw.size hd)
    rw [Expr.place, heq, evalNode, hl, hr, Expr.eval]
  | .assign op target value span, a, _, h, _, hd => by
    obtain ⟨d, hd, heq⟩ := evalAt_push h hd
    have hw := Expr.within_place (target.place a).1 value
    have hv := Expr.evalAt_place ev env c value _ (within_of_push h) hd
    have ht := Target.assign_place ev env c target a (hw.trans (within_of_push h))
      (Nat.le_trans hw.size hd) op (value.eval ev env) span
    rw [Expr.place, heq, evalNode, hv, ht, Expr.eval]
  | .call callee arguments span, a, _, h, _, hd => by
    obtain ⟨d, hd, heq⟩ := evalAt_push h hd
    have hw := within_placeAll (callee.place a) arguments
    have hvs := mapM_placeAll ev env c arguments _ (within_of_push h) hd
    have hf := Expr.evalAt_place ev env c callee a (hw.trans (within_of_push h))
      (Nat.le_trans hw.size hd)
    rw [Expr.place, heq, evalNode, hf, hvs, Expr.eval]
  | .create type arguments span, a, _, h, _, hd => by
    obtain ⟨d, hd, heq⟩ := evalAt_push h hd
    have hw := within_placeAll (type.place a) arguments
    have hvs := mapM_placeAll ev env c arguments _ (within_of_push h) hd
    have ht := Expr.evalAt_place ev env c type a (hw.trans (within_of_push h))
      (Nat.le_trans hw.size hd)
    rw [Expr.place, heq, evalNode, ht, hvs, Expr.eval]
  | .subscript object index span, a, _, h, _, hd => by
    obtain ⟨d, hd, heq⟩ := evalAt_push h hd
    have hw := Expr.within_place (object.place a) index
    have hi := Expr.evalAt_place ev env c index _ (within_of_push h) hd
    have ho := Expr.evalAt_place ev env c object a (hw.trans (within_of_push h))
      (Nat.le_trans hw.size hd)
    rw [Expr.place, heq, evalNode, ho, hi, Expr.eval]
  | .attr object name span, a, _, h, _, hd => by
    obtain ⟨d, hd, heq⟩ := evalAt_push h hd
    have ho := Expr.evalAt_place ev env c object a (within_of_push h) hd
    rw [Expr.place, heq, evalNode, ho, Expr.eval]
  | .function decl, a, _, h, depth, hd => by
    have hsize : a.nodes.size + 1 ≤ depth := by simpa [Expr.place, pushFunction] using hd
    obtain ⟨d, rfl⟩ : ∃ d, depth = d + 1 := ⟨depth - 1, by omega⟩
    have hdecl : c.functions[a.functions.size]? = some decl :=
      h.literal (by simp [Expr.place, pushFunction])
    have hnode := node?_last_push a (.function a.functions.size) decl.span
    have hspan := span?_last_push a (.function a.functions.size) decl.span
    rw [evalAt_of_node h hnode hspan, evalNode, Arena.literal, hdecl, Expr.eval]
    rfl
  | .list elements span, a, _, h, _, hd => by
    obtain ⟨d, hd, heq⟩ := evalAt_push h hd
    have hvs := mapM_placeAll ev env c elements a (within_of_push h) hd
    rw [Expr.place, heq, evalNode, hvs, Expr.eval]
  | .dict entries span, a, _, h, _, hd => by
    obtain ⟨d, hd, heq⟩ := evalAt_push h hd
    have hvs := foldlM_placeEntries ev env c entries a (within_of_push h) hd span Table.empty
    rw [Expr.place, heq, evalNode, hvs, Expr.eval]

theorem Target.assign_place (ev : Evaluator) (env : Nat) (c : Arena) : (t : Target) → (a : Arena) →
    [a.Paired] → (t.place a).1.Within c → ∀ {depth : Nat}, (t.place a).1.nodes.size ≤ depth →
      ∀ (op : AssignOp) (value : Eval Value) (span : Span),
        Arena.assign ev env (c.evalAt ev env depth) op value span (t.place a).2 =
          t.assign ev env op value span
  | .var name, _, _, _, _, _ => fun op value span => by
    rw [Target.place, Arena.assign, Target.assign]
  | .attr object name _, a, _, h, _, hd => fun op value span => by
    have ho := Expr.evalAt_place ev env c object a (within_of_push h)
      (Nat.le_trans (Within.push _ _ _).size hd)
    rw [Target.place, Arena.assign, ho, Target.assign]
  | .subscript object index _, a, _, h, _, hd => fun op value span => by
    have hsize := Nat.le_trans (Within.push _ _ _).size hd
    have hw := Expr.within_place (object.place a) index
    have hi := Expr.evalAt_place ev env c index _ (within_of_push h) hsize
    have ho := Expr.evalAt_place ev env c object a (hw.trans (within_of_push h))
      (Nat.le_trans hw.size hsize)
    rw [Target.place, Arena.assign, ho, hi, Target.assign]

theorem mapM_placeAll (ev : Evaluator) (env : Nat) (c : Arena) : (es : List Expr) → (a : Arena) →
    [a.Paired] → (placeAll a es).1.Within c →
    ∀ {depth : Nat}, (placeAll a es).1.nodes.size ≤ depth →
      (placeAll a es).2.mapM (c.evalAt ev env depth) = evalAll ev env es
  | [], _, _, _, _, _ => by rw [placeAll, evalAll, List.mapM_nil]
  | e :: es, a, _, h, _, hd => by
    have hw := within_placeAll (e.place a) es
    have hes := mapM_placeAll ev env c es _ h hd
    have he := Expr.evalAt_place ev env c e a (hw.trans h) (Nat.le_trans hw.size hd)
    rw [placeAll, List.mapM_cons, hes, he, evalAll]

theorem foldlM_placeAll (ev : Evaluator) (env : Nat) (c : Arena) : (es : List Expr) → (a : Arena) →
    [a.Paired] → (placeAll a es).1.Within c →
    ∀ {depth : Nat}, (placeAll a es).1.nodes.size ≤ depth →
      ∀ last : Value, (placeAll a es).2.foldlM (fun _ ref => c.evalAt ev env depth ref) last =
        evalLast ev env last es
  | [], _, _, _, _, _ => fun last => by rw [placeAll, evalLast, List.foldlM_nil]
  | e :: es, a, _, h, _, hd => fun last => by
    have hw := within_placeAll (e.place a) es
    have he := Expr.evalAt_place ev env c e a (hw.trans h) (Nat.le_trans hw.size hd)
    rw [placeAll, List.foldlM_cons, he, evalLast]
    congr 1
    funext v
    exact foldlM_placeAll ev env c es _ h hd v

theorem foldlM_placeEntries (ev : Evaluator) (env : Nat) (c : Arena) :
    (es : List (Expr × Expr)) → (a : Arena) → [a.Paired] →
      (placeEntries a es).1.Within c →
      ∀ {depth : Nat}, (placeEntries a es).1.nodes.size ≤ depth →
        ∀ (span : Span) (table : Table Key Value),
          (placeEntries a es).2.foldlM (fun table (key, value) => do
            let k ← c.evalAt ev env depth key
            let v ← c.evalAt ev env depth value
            let k ← attempt (Store.key k) span
            return table.put k v) table = evalEntries ev env span table es
  | [], _, _, _, _, _ => fun span table => by rw [placeEntries, evalEntries, List.foldlM_nil]
  | (key, value) :: es, a, _, h, _, hd => fun span table => by
    have hwe := within_placeEntries (value.place (key.place a)) es
    have hwv := Expr.within_place (key.place a) value
    have hv := Expr.evalAt_place ev env c value _ (hwe.trans h) (Nat.le_trans hwe.size hd)
    have hk := Expr.evalAt_place ev env c key a (hwv.trans (hwe.trans h))
      (Nat.le_trans (hwv.trans hwe).size hd)
    rw [placeEntries, List.foldlM_cons, evalEntries]
    simp only [hk, hv, bind_assoc, pure_bind]
    congr 1
    funext k
    congr 1
    funext v
    congr 1
    funext k
    exact foldlM_placeEntries ev env c es _ h hd span _

end

/-- Every number in the table of an expression is that of a node with a place: looking them up gives
the value of the expression and never fails. -/
theorem Expr.eval_arena (ev : Evaluator) (env : Nat) (e : Expr) :
    e.arena.eval ev env = e.eval ev env :=
  Expr.evalAt_place ev env e.arena e .empty (.refl _) (Nat.le_refl _)

end Rill.Syntax
