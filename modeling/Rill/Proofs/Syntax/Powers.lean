import Rill.Proofs.Syntax.Spelling

/-! How the operators of a tree have to be arranged for their binding powers. -/
namespace Rill

/-- How tightly a token of this kind binds an operand before it, if it does so at all. -/
def Token.Kind.leftPower? (k : Token.Kind) : Option Nat :=
  match Suffix.ofKind? k with
  | some _ => some Suffix.power
  | none =>
  match BinaryOp.ofKind? k with
  | some op => some op.power.1
  | none =>
  match LogicOp.ofKind? k with
  | some op => some op.power.1
  | none => (AssignOp.ofKind? k).map fun _ => AssignOp.power.1

/-- The symbol that a suffix begins with. -/
def Suffix.symbol : Suffix → Symbol
  | call => .leftParen
  | subscript => .leftBracket
  | dot => .dot

theorem Suffix.ofKind?_eq_some {k : Token.Kind} {suffix : Suffix} :
    ofKind? k = some suffix ↔ k = .symbol suffix.symbol := by
  constructor
  · intro h
    unfold ofKind? at h
    split at h <;> cases h <;> rfl
  · rintro rfl
    cases suffix <;> rfl

namespace Syntax
namespace Expr

/-- The left powers of the operators on the left spine, from the root down. -/
def leftPowers : Expr → List Nat
  | binary op lhs _ _ => op.power.1 :: lhs.leftPowers
  | logic op lhs _ _ => op.power.1 :: lhs.leftPowers
  | assign _ _ _ _ => [AssignOp.power.1]
  | _ => []

/-- The right powers of the operators on the right spine, from the root down. -/
def rightPowers : Expr → List Nat
  | unary _ operand _ => 23 :: operand.rightPowers
  | binary op _ rhs _ => op.power.2 :: rhs.rightPowers
  | logic op _ rhs _ => op.power.2 :: rhs.rightPowers
  | assign _ _ value _ => AssignOp.power.2 :: value.rightPowers
  | _ => []

/-- What a suffix may follow: all but an operator with its operands and a sequence. -/
def isTight : Expr → Bool
  | unary _ _ _ | binary _ _ _ _ | logic _ _ _ _ | assign _ _ _ _ | sequence _ _ => false
  | _ => true

end Expr

/-- An operator with these powers may stand between the two operands: it takes the left one from
every operator at the end of that, and the right one has only operators that bind at least as
tightly as it does. -/
def Fitting (power : Nat × Nat) (lhs rhs : Expr) : Prop :=
  (∀ p ∈ lhs.rightPowers, power.1 < p) ∧ ∀ p ∈ rhs.leftPowers, power.2 ≤ p

mutual

/-- Every operator and suffix in the tree has operands that it may have without parentheses. -/
def Expr.Ordered : Expr → Prop
  | .atom _ _ => True
  | .group inner _ => inner.Ordered
  | .sequence parts _ => AllOrdered parts
  | .unary _ operand _ => (∀ p ∈ operand.leftPowers, 23 ≤ p) ∧ operand.Ordered
  | .binary op lhs rhs _ => Fitting op.power lhs rhs ∧ lhs.Ordered ∧ rhs.Ordered
  | .logic op lhs rhs _ => Fitting op.power lhs rhs ∧ lhs.Ordered ∧ rhs.Ordered
  | .assign _ target value _ => target.Ordered ∧ value.Ordered
  | .call callee arguments _ => callee.isTight ∧ callee.Ordered ∧ AllOrdered arguments
  | .create type arguments _ => type.isTight ∧ type.Ordered ∧ AllOrdered arguments
  | .subscript object index _ => object.isTight ∧ object.Ordered ∧ index.Ordered
  | .attr object _ _ => object.isTight ∧ object.Ordered
  | .function decl => decl.Ordered
  | .list elements _ => AllOrdered elements
  | .dict entries _ => EntriesOrdered entries

def Target.Ordered : Target → Prop
  | .var _ => True
  | .attr object _ _ => object.isTight ∧ object.Ordered
  | .subscript object index _ => object.isTight ∧ object.Ordered ∧ index.Ordered

def FunctionDecl.Ordered : FunctionDecl → Prop
  | ⟨_, _, body, _⟩ => BodyOrdered body

def Stmt.Ordered : Stmt → Prop
  | .functionDecl decl => decl.Ordered
  | .moduleDecl _ body _ => BodyOrdered body
  | .classDecl _ superclass body _ => OptionOrdered superclass ∧ BodyOrdered body
  | .block body _ => BodyOrdered body
  | .includeFile _ _ => True
  | .expr value => value.Ordered
  | .ifElse condition success failure _ =>
    condition.Ordered ∧ BodyOrdered success ∧ BranchOrdered failure
  | .loop condition body step _ _ =>
    OptionOrdered condition ∧ BodyOrdered body ∧ OptionOrdered step
  | .forEach _ iterable body _ => iterable.Ordered ∧ BodyOrdered body
  | .breakLoop _ => True
  | .continueLoop _ => True
  | .returnValue value _ => OptionOrdered value

def AllOrdered : List Expr → Prop
  | [] => True
  | e :: es => e.Ordered ∧ AllOrdered es

def EntriesOrdered : List (Expr × Expr) → Prop
  | [] => True
  | (k, v) :: es => k.Ordered ∧ v.Ordered ∧ EntriesOrdered es

def OptionOrdered : Option Expr → Prop
  | none => True
  | some e => e.Ordered

def BodyOrdered : List Stmt → Prop
  | [] => True
  | s :: ss => s.Ordered ∧ BodyOrdered ss

def BranchOrdered : Option (List Stmt) → Prop
  | none => True
  | some body => BodyOrdered body

end

namespace Expr

/-- Nothing binds more tightly than a suffix, so what no suffix can split is tight. -/
theorem rightPowers_lt {e : Expr} {p : Nat} (h : p ∈ e.rightPowers) : p < Suffix.power := by
  fun_induction rightPowers e with
  | case1 op operand s ih =>
    rcases List.mem_cons.mp h with rfl | h
    · decide
    · exact ih h
  | case2 op lhs rhs s ih =>
    rcases List.mem_cons.mp h with rfl | h
    · cases op <;> decide
    · exact ih h
  | case3 op lhs rhs s ih =>
    rcases List.mem_cons.mp h with rfl | h
    · cases op <;> decide
    · exact ih h
  | case4 op target value s ih =>
    rcases List.mem_cons.mp h with rfl | h
    · decide
    · exact ih h
  | case5 => simp at h

/-- Nothing binds less tightly than an assignment does to its right. -/
theorem le_of_mem_leftPowers {e : Expr} {p : Nat} (h : p ∈ e.leftPowers) :
    AssignOp.power.2 ≤ p := by
  fun_induction leftPowers e with
  | case1 op lhs rhs s ih =>
    rcases List.mem_cons.mp h with rfl | h
    · cases op <;> decide
    · exact ih h
  | case2 op lhs rhs s ih =>
    rcases List.mem_cons.mp h with rfl | h
    · cases op <;> decide
    · exact ih h
  | case3 =>
    obtain rfl := List.mem_singleton.mp h
    decide
  | case4 => simp at h

theorem leftPowers_eq_nil {e : Expr} (h : e.isTight) : e.leftPowers = [] := by
  cases e <;> first | rfl | cases h

theorem rightPowers_eq_nil {e : Expr} (h : e.isTight) : e.rightPowers = [] := by
  cases e <;> first | rfl | cases h

end Expr

namespace Target

theorem ordered_toExpr {target : Target} : target.toExpr.Ordered ↔ target.Ordered := by
  cases target with
  | var => exact Iff.rfl
  | attr => exact Iff.rfl
  | subscript => exact Iff.rfl

theorem isTight_toExpr (target : Target) : target.toExpr.isTight := by
  cases target <;> rfl

end Target

namespace Grammar

/-- The power with which an operator extends what comes before it depends on its kind alone. -/
theorem map_extension? (g : Grammar) (lhs : Expr) (token : Token) :
    (extension? g lhs token).map Prod.fst = token.kind.leftPower? := by
  unfold extension? Token.Kind.leftPower?
  cases Suffix.ofKind? token.kind <;> cases BinaryOp.ofKind? token.kind <;>
    cases LogicOp.ofKind? token.kind <;> cases AssignOp.ofKind? token.kind <;> rfl

end Grammar
end Syntax
end Rill
