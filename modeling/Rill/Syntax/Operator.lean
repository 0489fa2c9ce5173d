import Rill.Token

/-! Operators, how tightly they bind and the hooks that overload them. -/
namespace Rill

inductive UnaryOp where
  | plus | minus | tilde | bang
deriving DecidableEq, Repr

namespace UnaryOp

def ofKind? : Token.Kind → Option UnaryOp
  | .symbol .plus => some plus
  | .symbol .minus => some minus
  | .symbol .tilde => some tilde
  | .symbol .bang => some bang
  | _ => none

/-- A unary operator takes operands that bind at least this tightly. -/
def power : Nat := 23

def text : UnaryOp → String
  | plus => "+"
  | minus => "-"
  | tilde => "~"
  | bang => "!"

/-- The method that overloads the operator on instances. -/
def hook : UnaryOp → String
  | plus => "__pos__"
  | minus => "__neg__"
  | tilde => "__invert__"
  | bang => "__not__"

def label : UnaryOp → String
  | plus => "Plus"
  | minus => "Minus"
  | tilde => "Tilde"
  | bang => "Bang"

def all : List UnaryOp := [plus, minus, tilde, bang]

end UnaryOp

inductive BinaryOp where
  | add | sub | mul | div | floorDiv | mod | pow
  | bitAnd | bitOr | bitXor | shiftLeft | shiftRight
  | eq | ne | lt | le | gt | ge
deriving DecidableEq, Repr

namespace BinaryOp

def ofKind? : Token.Kind → Option BinaryOp
  | .symbol .plus => some add
  | .symbol .minus => some sub
  | .symbol .star => some mul
  | .symbol .slash => some div
  | .symbol .slashSlash => some floorDiv
  | .symbol .percent => some mod
  | .symbol .starStar => some pow
  | .symbol .ampersand => some bitAnd
  | .symbol .pipe => some bitOr
  | .symbol .caret => some bitXor
  | .symbol .lessLess => some shiftLeft
  | .symbol .greaterGreater => some shiftRight
  | .symbol .equalEqual => some eq
  | .symbol .bangEqual => some ne
  | .symbol .less => some lt
  | .symbol .lessEqual => some le
  | .symbol .greater => some gt
  | .symbol .greaterEqual => some ge
  | _ => none

/-- Left and right binding power. The operand on a side binds at least as tightly as that side, and
of two operators that compete for an operand the one with the greater power takes it. -/
def power : BinaryOp → Nat × Nat
  | pow => (26, 25)
  | mul | div | floorDiv | mod => (21, 22)
  | add | sub => (19, 20)
  | shiftLeft | shiftRight => (17, 18)
  | bitAnd => (15, 16)
  | bitXor => (13, 14)
  | bitOr => (11, 12)
  | lt | le | gt | ge => (9, 10)
  | eq | ne => (7, 8)

def text : BinaryOp → String
  | add => "+"
  | sub => "-"
  | mul => "*"
  | div => "/"
  | floorDiv => "//"
  | mod => "%"
  | pow => "**"
  | bitAnd => "&"
  | bitOr => "|"
  | bitXor => "^"
  | shiftLeft => "<<"
  | shiftRight => ">>"
  | eq => "=="
  | ne => "!="
  | lt => "<"
  | le => "<="
  | gt => ">"
  | ge => ">="

/-- The method of the left operand that overloads the operator on instances. -/
def hook : BinaryOp → String
  | add => "__add__"
  | sub => "__sub__"
  | mul => "__mul__"
  | div => "__div__"
  | floorDiv => "__floordiv__"
  | mod => "__mod__"
  | pow => "__pow__"
  | bitAnd => "__and__"
  | bitOr => "__or__"
  | bitXor => "__xor__"
  | shiftLeft => "__lshift__"
  | shiftRight => "__rshift__"
  | eq => "__eq__"
  | ne => "__ne__"
  | lt => "__lt__"
  | le => "__le__"
  | gt => "__gt__"
  | ge => "__ge__"

def label : BinaryOp → String
  | add => "Add"
  | sub => "Subtract"
  | mul => "Multiply"
  | div => "Divide"
  | floorDiv => "FloorDivide"
  | mod => "Modulo"
  | pow => "Power"
  | bitAnd => "BitAnd"
  | bitOr => "BitOr"
  | bitXor => "BitXor"
  | shiftLeft => "ShiftLeft"
  | shiftRight => "ShiftRight"
  | eq => "EqualEqual"
  | ne => "BangEqual"
  | lt => "LessThan"
  | le => "LessThanEqual"
  | gt => "GreaterThan"
  | ge => "GreaterThanEqual"

def all : List BinaryOp :=
  [add, sub, mul, div, floorDiv, mod, pow, bitAnd, bitOr, bitXor, shiftLeft, shiftRight, eq, ne, lt,
    le, gt, ge]

/-- The operator written `text`. -/
def ofText? (text : String) : Option BinaryOp := all.find? (·.text == text)

end BinaryOp

/-- Operators that may leave their right operand unevaluated. -/
inductive LogicOp where
  | and | or
deriving DecidableEq, Repr

namespace LogicOp

def ofKind? : Token.Kind → Option LogicOp
  | .keyword .andWord | .symbol .ampersandAmpersand => some and
  | .keyword .orWord | .symbol .pipePipe => some or
  | _ => none

def power : LogicOp → Nat × Nat
  | and => (5, 6)
  | or => (3, 4)

def text : LogicOp → String
  | and => "and"
  | or => "or"

def label : LogicOp → String
  | and => "And"
  | or => "Or"

/-- Whether the truth of the left operand decides the result. -/
def settles (op : LogicOp) (lhs : Bool) : Bool :=
  match op with
  | and => !lhs
  | or => lhs

end LogicOp

/-- Plain assignment, or assignment of the result of an operator applied to the old value. -/
inductive AssignOp where
  | plain
  | inPlace (op : BinaryOp)
deriving DecidableEq, Repr

namespace AssignOp

def ofKind? : Token.Kind → Option AssignOp
  | .symbol .equal => some plain
  | .symbol .plusEqual => some (inPlace .add)
  | .symbol .minusEqual => some (inPlace .sub)
  | .symbol .starEqual => some (inPlace .mul)
  | .symbol .starStarEqual => some (inPlace .pow)
  | .symbol .slashEqual => some (inPlace .div)
  | .symbol .slashSlashEqual => some (inPlace .floorDiv)
  | .symbol .percentEqual => some (inPlace .mod)
  | .symbol .ampersandEqual => some (inPlace .bitAnd)
  | .symbol .pipeEqual => some (inPlace .bitOr)
  | .symbol .caretEqual => some (inPlace .bitXor)
  | .symbol .lessLessEqual => some (inPlace .shiftLeft)
  | .symbol .greaterGreaterEqual => some (inPlace .shiftRight)
  | _ => none

/-- Assignment binds least tightly and groups to the right. -/
def power : Nat × Nat := (2, 1)

def text : AssignOp → String
  | plain => "="
  | inPlace op => op.text ++ "="

def outline : AssignOp → Outline
  | plain => .leaf "Assign"
  | inPlace op => .tagged "Inplace" [.leaf op.label]

end AssignOp

/-- What may follow an operand: arguments, an index or an attribute. -/
inductive Suffix where
  | call | subscript | dot
deriving DecidableEq, Repr

namespace Suffix

def ofKind? : Token.Kind → Option Suffix
  | .symbol .leftParen => some call
  | .symbol .leftBracket => some subscript
  | .symbol .dot => some dot
  | _ => none

/-- Suffixes bind most tightly. -/
def power : Nat := 27

end Suffix
end Rill
