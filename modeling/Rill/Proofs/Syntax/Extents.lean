import Rill.Proofs.Syntax.Nesting
import Rill.Proofs.Syntax.Tracing

/-! Where the parts of a program begin and end, in terms of the tokens that they are made of. -/
namespace Rill.Syntax

open Text (Span)
open Token (Word)

/-! ### Places of tokens -/

/-- Each token ends before the next one starts. -/
def InOrder (ts : List Token) : Prop := ts.Pairwise fun t u => t.span.stop ≤ u.span.start

/-- From the first byte of the first token to the last byte of the last one. -/
structure Extent (ts : List Token) (s : Span) : Prop where
  first : ∃ t, ts.head? = some t ∧ s.start = t.span.start
  last : ∃ t, ts.getLast? = some t ∧ s.stop = t.span.stop

namespace InOrder

variable {ts us vs : List Token} {t u : Token}

theorem left (h : InOrder (us ++ vs)) : InOrder us := (List.pairwise_append.mp h).1

theorem right (h : InOrder (us ++ vs)) : InOrder vs := (List.pairwise_append.mp h).2.1

theorem across (h : InOrder (us ++ vs)) (ht : t ∈ us) (hu : u ∈ vs) :
    t.span.stop ≤ u.span.start :=
  (List.pairwise_append.mp h).2.2 t ht u hu

theorem start_le (h : InOrder ts) (ht : ts.head? = some t) (hu : u ∈ ts) :
    t.span.start ≤ u.span.start := by
  obtain ⟨vs, rfl⟩ := List.head?_eq_some_iff.mp ht
  have hle : t.span.start ≤ t.span.stop := Nat.le_add_right _ _
  rcases List.mem_cons.mp hu with rfl | hu
  · exact Nat.le_refl _
  · exact Nat.le_trans hle (List.rel_of_pairwise_cons h hu)

theorem le_stop (h : InOrder ts) (ht : ts.getLast? = some t) (hu : u ∈ ts) :
    u.span.stop ≤ t.span.stop := by
  obtain ⟨vs, rfl⟩ := List.getLast?_eq_some_iff.mp ht
  have hle : t.span.start ≤ t.span.stop := Nat.le_add_right _ _
  rcases List.mem_append.mp hu with hu | hu
  · exact Nat.le_trans (h.across hu (List.mem_singleton_self t)) hle
  · exact Nat.le_of_eq (by rw [List.mem_singleton.mp hu])

end InOrder

namespace Extent

variable {ts us gap vs : List Token} {s s' : Span}

theorem token (t : Token) : Extent [t] t.span := ⟨⟨t, rfl, rfl⟩, ⟨t, rfl, rfl⟩⟩

/-- What covers the first tokens and the last ones covers all between them. -/
theorem merge (h : Extent us s) (h' : Extent vs s') (horder : InOrder (us ++ (gap ++ vs))) :
    Extent (us ++ (gap ++ vs)) (s.merge s') := by
  obtain ⟨⟨a, ha, hstart⟩, ⟨b, hb, hstop⟩⟩ := h
  obtain ⟨⟨c, hc, hstart'⟩, ⟨d, hd, hstop'⟩⟩ := h'
  have hfirst : (us ++ (gap ++ vs)).head? = some a := by simp [List.head?_append, ha]
  have hlast : (us ++ (gap ++ vs)).getLast? = some d := by simp [List.getLast?_append, hd]
  have hac : a.span.start ≤ c.span.start :=
    horder.start_le hfirst (by simp [List.mem_of_mem_head? hc])
  have hbd : b.span.stop ≤ d.span.stop :=
    horder.le_stop hlast (by simp [List.mem_of_mem_getLast? hb])
  refine ⟨⟨a, hfirst, ?_⟩, ⟨d, hlast, ?_⟩⟩
  · rw [Span.start_merge]
    omega
  · rw [Span.stop_merge]
    omega

/-- Nothing has to come between the first tokens and the last ones. -/
theorem join (h : Extent us s) (h' : Extent vs s') (horder : InOrder (us ++ vs)) :
    Extent (us ++ vs) (s.merge s') :=
  @merge us [] vs s s' h h' horder

/-- What some of the tokens cover lies within what all of them cover. -/
theorem within (h : Extent ts s) (h' : Extent us s') (horder : InOrder ts) (hsub : us ⊆ ts) :
    s.start ≤ s'.start ∧ s'.stop ≤ s.stop := by
  obtain ⟨⟨a, ha, hstart⟩, ⟨b, hb, hstop⟩⟩ := h
  obtain ⟨⟨c, hc, hstart'⟩, ⟨d, hd, hstop'⟩⟩ := h'
  have hac := horder.start_le ha (hsub (List.mem_of_mem_head? hc))
  have hdb := horder.le_stop hb (hsub (List.mem_of_mem_getLast? hd))
  omega

/-- What some tokens cover ends before what some of those after them cover. -/
theorem across (h : Extent us s) (h' : Extent ts s') (horder : InOrder (us ++ vs))
    (hsub : ts ⊆ vs) : s.stop ≤ s'.start := by
  obtain ⟨b, hb, hstop⟩ := h.last
  obtain ⟨c, hc, hstart⟩ := h'.first
  have hbc := horder.across (List.mem_of_mem_getLast? hb) (hsub (List.mem_of_mem_head? hc))
  omega

end Extent

/-! ### Parts of programs -/

/-- What has a place of its own in a program. -/
inductive Part where
  | expr (e : Expr)
  | stmt (s : Stmt)

namespace Part

def exprs (es : List Expr) : List Part := es.map expr

def stmts (ss : List Stmt) : List Part := ss.map stmt

def span : Part → Span
  | expr e => e.span
  | stmt s => s.span

/-- The parts directly inside a part, in the order of the source. What an assignment writes to is
one of them, as the expression that it was read as. -/
def parts : Part → List Part
  | expr (.function decl) => stmts decl.body
  | expr (.assign _ target value _) => [expr target.toExpr, expr value]
  | expr e => exprs e.operands
  | stmt (.functionDecl decl) => stmts decl.body
  | stmt (.moduleDecl _ body _) => stmts body
  | stmt (.classDecl _ superclass body _) => exprs superclass.toList ++ stmts body
  | stmt (.block body _) => stmts body
  | stmt (.expr value) => [expr value]
  | stmt (.ifElse condition success failure _) =>
    expr condition :: (stmts success ++ stmts (failure.getD []))
  | stmt (.loop condition body step false _) =>
    exprs condition.toList ++ (exprs step.toList ++ stmts body)
  | stmt (.loop condition body step true _) =>
    stmts body ++ (exprs condition.toList ++ exprs step.toList)
  | stmt (.forEach _ iterable body _) => expr iterable :: stmts body
  | stmt (.returnValue value _) => exprs value.toList
  | stmt (.includeFile _ _) | stmt (.breakLoop _) | stmt (.continueLoop _) => []

/-- The statements in braces directly inside a part. -/
def bodies : Part → List (List Stmt)
  | expr (.function decl) => [decl.body]
  | expr _ => []
  | stmt (.block _ _) => []
  | stmt s => s.bodies.map Prod.snd

/-- The words spell the part. Those of a statement do not include the semicolons after it. -/
def Spelled : Part → List Word → Prop
  | expr e, ws => SequenceSpelled 0 e ws
  | stmt s, ws => s.Spelled 0 ws

/-- The initializer of a loop and the loop that it is written into. -/
def isPair : Part → Bool
  | stmt (.block _ _) => true
  | _ => false

-- The place of a part is that of the tokens that spell it, and so on for the parts inside it, which
-- follow one another. Only the loop that an initializer is written into has no tokens of its own:
-- its place is that of the two together.
mutual

inductive Exact : Part → List Token → Prop
  | whole {x ts} : x.isPair = false → x.Spelled (ts.map Token.word) → Extent ts x.span →
      Rows x.parts ts → Exact x ts
  | pair {i c p body s ts} :
      (stmt (.block (initial i ++ [.loop c body p false s]) s)).Spelled (ts.map Token.word) →
      Extent ts s → Rows (stmts (initial i) ++ (stmt (.loop c body p false s)).parts) ts →
      Exact (stmt (.block (initial i ++ [.loop c body p false s]) s)) ts

/-- Parts one after another, with other tokens before, between and after them. -/
inductive Rows : List Part → List Token → Prop
  | nil {ts} : Rows [] ts
  | cons {x xs gap us vs} : Exact x us → Rows xs vs → Rows (x :: xs) (gap ++ (us ++ vs))

end

theorem Exact.extent {x : Part} {ts : List Token} (h : x.Exact ts) : Extent ts x.span := by
  cases h with
  | whole _ _ hextent _ => exact hextent
  | pair _ hextent _ => exact hextent

namespace Rows

variable {x : Part} {xs ys : List Part} {us vs ts : List Token}

theorem one (h : x.Exact ts) : Rows [x] ts := by
  have hcons : Rows [x] ([] ++ (ts ++ [])) := .cons h .nil
  rwa [List.nil_append, List.append_nil] at hcons

theorem after (h : Rows xs vs) (gap : List Token) : Rows xs (gap ++ vs) := by
  cases h with
  | nil => exact .nil
  | cons hx hxs =>
    rw [← List.append_assoc]
    exact .cons hx hxs

theorem append (h : Rows xs us) (h' : Rows ys vs) : Rows (xs ++ ys) (us ++ vs) := by
  induction xs generalizing us with
  | nil => exact h'.after us
  | cons x xs ih =>
    cases h with
    | cons hx hxs =>
      simp only [List.append_assoc, List.cons_append]
      exact .cons hx (ih hxs)

theorem before (h : Rows xs us) (gap : List Token) : Rows xs (us ++ gap) := by
  have happend := h.append (.nil : Rows [] gap)
  rwa [List.append_nil] at happend

/-- Each of the parts is made of tokens next to each other. -/
theorem exists_exact (h : Rows xs ts) (hx : x ∈ xs) : ∃ us, us <:+: ts ∧ x.Exact us := by
  induction xs generalizing ts with
  | nil => cases hx
  | cons y ys ih =>
    cases h with
    | @cons _ _ gap us vs hy hys =>
      rcases List.mem_cons.mp hx with rfl | hx
      · exact ⟨us, List.infix_append' gap us vs, hy⟩
      · obtain ⟨ws, hws, hexact⟩ := ih hys hx
        have hwithin : vs <:+: gap ++ (us ++ vs) :=
          ((List.suffix_append us vs).trans (List.suffix_append gap _)).isInfix
        exact ⟨ws, hws.trans hwithin, hexact⟩

/-- Each of the parts ends before the next one starts. -/
theorem pairwise (h : Rows xs ts) (horder : InOrder ts) :
    xs.Pairwise fun x y => x.span.stop ≤ y.span.start := by
  induction xs generalizing ts with
  | nil => exact .nil
  | cons x xs ih =>
    cases h with
    | cons hx hxs =>
      refine .cons (fun y hy => ?_) (ih hxs horder.right.right)
      obtain ⟨ws, hws, hy⟩ := hxs.exists_exact hy
      exact hx.extent.across hy.extent horder.right hws.subset

end Rows
end Part
end Rill.Syntax
