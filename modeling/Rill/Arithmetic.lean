import Rill.Exact
import Rill.Store.Sequence
import Rill.Syntax.Operator

/-! What the operators do to values that do not overload them. -/
namespace Rill.Arithmetic

open Store (Attempt fail)

/-- Both operands as floats, if they are numbers and at least one is a float. -/
def floats? : Value → Value → Option (Binary64 × Binary64)
  | .float x, .float y => some (x, y)
  | .int i, .float y => some (Binary64.ofInt64 i, y)
  | .float x, .int j => some (x, Binary64.ofInt64 j)
  | _, _ => none

def unsupported {α : Type} (op : BinaryOp) (lhs rhs : Value) : Attempt α := do
  let s ← get
  fail (.unsupportedOperands op.text (s.typeName lhs) (s.typeName rhs))

/-- The result of exact arithmetic, or the fault of leaving the range. -/
def exact (operator : String) : Option Int64 → Attempt Value
  | some i => return .int i
  | none => fail (.overflow operator)

/-- The result of arithmetic in steps. Where a step leaves the range that is relied on to stay in it,
the language itself is to blame. -/
def settle (operator : String) : Except Exact.Excess Int64 → Attempt Value
  | .ok i => return .int i
  | .error .noticed => fail (.overflow operator)
  | .error .unnoticed => throw .defect

/-- An operation on floats, where integers next to a float count as floats. -/
def onFloats (op : BinaryOp) (f : Binary64 → Binary64 → Attempt Value) (lhs rhs : Value) :
    Attempt Value :=
  match floats? lhs rhs with
  | some (x, y) => f x y
  | none => unsupported op lhs rhs

/-- The greatest length of a repeated sequence. -/
def maxLength : Nat := 0x10000000

/-- How often a sequence of the given length is repeated. Negative counts repeat it not at all. -/
def repetitions (length : Nat) (count : Int64) : Attempt Nat :=
  let count := count.toInt.toNat
  if length = 0 then return 0
  else if length * count ≤ maxLength then return count
  else fail (.overflow BinaryOp.mul.text)

def repeatText (s : String) : Nat → String → String
  | 0, acc => acc
  | n + 1, acc => repeatText s n (acc ++ s)

def repeatArray (xs : Array Value) : Nat → Array Value → Array Value
  | 0, acc => acc
  | n + 1, acc => repeatArray xs n (acc ++ xs)

def repeatString (s : String) (count : Int64) : Attempt Value := do
  let n ← repetitions s.utf8ByteSize count
  return .str (repeatText s n "")

def repeatList (id : Nat) (count : Int64) : Attempt Value := do
  let elements := (← get).list id
  let n ← repetitions elements.size count
  Store.newList (repeatArray elements n #[])

def add (lhs rhs : Value) : Attempt Value :=
  match lhs, rhs with
  | .int i, .int j => exact BinaryOp.add.text (Exact.add? i j)
  | .str s, .str t => return .str (s ++ t)
  | .list a, .list b => do
    let s ← get
    Store.newList (s.list a ++ s.list b)
  | _, _ => onFloats .add (fun x y => return .float (x.add y)) lhs rhs

def sub (lhs rhs : Value) : Attempt Value :=
  match lhs, rhs with
  | .int i, .int j => exact BinaryOp.sub.text (Exact.sub? i j)
  | _, _ => onFloats .sub (fun x y => return .float (x.sub y)) lhs rhs

def mul (lhs rhs : Value) : Attempt Value :=
  match lhs, rhs with
  | .int i, .int j => exact BinaryOp.mul.text (Exact.mul? i j)
  | .str s, .int n | .int n, .str s => repeatString s n
  | .list id, .int n | .int n, .list id => repeatList id n
  | _, _ => onFloats .mul (fun x y => return .float (x.mul y)) lhs rhs

/-- A division of floats, which fails if the divisor is zero. -/
def divideBy (f : Binary64 → Binary64 → Binary64) (x y : Binary64) : Attempt Value :=
  if y.isZero then fail .divByZero else return .float (f x y)

/-- Division always gives a float. -/
def div (lhs rhs : Value) : Attempt Value :=
  match lhs, rhs with
  | .int i, .int j => divideBy Binary64.div (Binary64.ofInt64 i) (Binary64.ofInt64 j)
  | _, _ => onFloats .div (divideBy Binary64.div) lhs rhs

def floorDiv (lhs rhs : Value) : Attempt Value :=
  match lhs, rhs with
  | .int i, .int j =>
    if j = 0 then fail .divByZero else settle BinaryOp.floorDiv.text (Exact.floorDiv i j)
  | _, _ => onFloats .floorDiv (divideBy fun x y => (x.div y).floor) lhs rhs

/-- The remainder with the sign of the divisor. -/
def floatMod (x y : Binary64) : Binary64 :=
  let r := x.rem y
  if !r.isNaN && !r.isZero && !y.isNaN && r.isNegative != y.isNegative then r.add y else r

def mod (lhs rhs : Value) : Attempt Value :=
  match lhs, rhs with
  | .int i, .int j =>
    if j = 0 then fail .divByZero else settle BinaryOp.mod.text (Exact.mod i j)
  | _, _ => onFloats .mod (divideBy floatMod) lhs rhs

/-- A negative power of an integer is a division by zero. -/
def pow (lhs rhs : Value) : Attempt Value :=
  match lhs, rhs with
  | .int i, .int j =>
    if j < 0 then fail .divByZero else exact BinaryOp.pow.text (Exact.pow? i j)
  | _, _ => onFloats .pow (fun x y => return .float (x.pow y)) lhs rhs

/-- Bitwise operators work on integers and on truth values. -/
def bitwise (op : BinaryOp) (ints : Int64 → Int64 → Int64) (bools : Bool → Bool → Bool)
    (lhs rhs : Value) : Attempt Value :=
  match lhs, rhs with
  | .int i, .int j => return .int (ints i j)
  | .bool a, .bool b => return .bool (bools a b)
  | _, _ => unsupported op lhs rhs

def shift (op : BinaryOp) (f : Int64 → Int64 → Option Int64) (lhs rhs : Value) : Attempt Value :=
  match lhs, rhs with
  | .int i, .int j => exact op.text (f i j)
  | _, _ => unsupported op lhs rhs

/-- The order of two numbers or of two strings, if they have one. -/
def order? : Value → Value → Option Ordering
  | .int i, .int j => some (compare i.toInt j.toInt)
  | .str s, .str t => some (compare s t)
  | lhs, rhs => do
    let (x, y) ← floats? lhs rhs
    x.compare? y

/-- Whether two values are of kinds that can be compared. -/
def comparable : Value → Value → Bool
  | .int _, .int _ | .int _, .float _ | .float _, .int _ | .float _, .float _ | .str _, .str _ => true
  | _, _ => false

/-- A comparison. It does not hold between values without an order. -/
def compareBy (op : BinaryOp) (holds : Ordering → Bool) (lhs rhs : Value) : Attempt Value :=
  if comparable lhs rhs then return .bool ((order? lhs rhs).any holds)
  else unsupported op lhs rhs

def binary (op : BinaryOp) (lhs rhs : Value) : Attempt Value :=
  match op with
  | .add => add lhs rhs
  | .sub => sub lhs rhs
  | .mul => mul lhs rhs
  | .div => div lhs rhs
  | .floorDiv => floorDiv lhs rhs
  | .mod => mod lhs rhs
  | .pow => pow lhs rhs
  | .bitAnd => bitwise op (· &&& ·) (· && ·) lhs rhs
  | .bitOr => bitwise op (· ||| ·) (· || ·) lhs rhs
  | .bitXor => bitwise op (· ^^^ ·) (· != ·) lhs rhs
  | .shiftLeft => shift op Exact.shiftLeft? lhs rhs
  | .shiftRight => shift op Exact.shiftRight? lhs rhs
  | .lt => compareBy op Ordering.isLT lhs rhs
  | .le => compareBy op Ordering.isLE lhs rhs
  | .gt => compareBy op Ordering.isGT lhs rhs
  | .ge => compareBy op Ordering.isGE lhs rhs
  | .eq => return .bool (lhs.same rhs)
  | .ne => return .bool (!lhs.same rhs)

def unary (op : UnaryOp) (operand : Value) : Attempt Value := do
  match op, operand with
  | .bang, v => return .bool (!(← get).isTruthy v)
  | .plus, .int _ | .plus, .float _ => return operand
  | .minus, .int i => exact op.text (Exact.neg? i)
  | .minus, .float x => return .float x.neg
  | .tilde, .int i => return .int (~~~i)
  | _, _ => fail (.unsupportedOperand op.text ((← get).typeName operand))

end Rill.Arithmetic
