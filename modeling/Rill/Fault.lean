import Rill.Builtin

/-! What goes wrong while a program runs. -/
namespace Rill

/-- Failures that are noticed by the language itself. -/
inductive Fault where
  | divByZero
  | outOfRange (index : Int) (length : Nat)
  | keyNotFound (key : String)
  | attrNotFound (type name : String)
  | varNotFound (name : String)
  | argCount (name expected : String) (actual : Nat)
  | unsupportedOperands (operator lhs rhs : String)
  | unsupportedOperand (operator operand : String)
  | notCallable (type : String)
  | notSubscriptable (type : String)
  | unhashable (type : String)
  | readOnly (type : String)
  | invalidIteratorItem (type : String)
  | invalidSuperclass (type : String)
  | invalidArgument (message : String)
  | moduleVarNotFound (module name : String)
  | stackOverflow (limit : Nat)
  | overflow (operator : String)
  | includeError (path reason : String)
deriving DecidableEq, Repr

namespace Fault

def message : Fault → String
  | divByZero => "Division by zero."
  | outOfRange index length => s!"Index {index} is out of range for length {length}."
  | keyNotFound key => "Key " ++ key ++ " not found."
  | attrNotFound type name => type ++ " has no attribute `" ++ name ++ "`."
  | varNotFound name => "Variable `" ++ name ++ "` is not defined."
  | argCount name expected actual =>
    name ++ " expected " ++ expected ++ " argument(s) but got " ++ toString actual ++ "."
  | unsupportedOperands operator lhs rhs =>
    "Unsupported operand types for " ++ operator ++ ": " ++ lhs ++ " and " ++ rhs ++ "."
  | unsupportedOperand operator operand =>
    "Unsupported operand type for unary " ++ operator ++ ": " ++ operand ++ "."
  | notCallable type => type ++ " is not callable."
  | notSubscriptable type => type ++ " is not subscriptable."
  | unhashable type => "Unhashable type " ++ type ++ "."
  | readOnly type => "Can't set attributes on " ++ type ++ "."
  | invalidIteratorItem type => "Iterator returned " ++ type ++ " instead of an item or null."
  | invalidSuperclass type => "Can't inherit from " ++ type ++ "."
  | invalidArgument message => message
  | moduleVarNotFound module name => "Module " ++ module ++ " has no variable `" ++ name ++ "`."
  | stackOverflow limit => s!"Maximum call depth of {limit} exceeded."
  | overflow operator => "Integer overflow in " ++ operator ++ "."
  | includeError path reason => "Failed to include " ++ path ++ ": " ++ reason

/-- The class of the exception that is raised. -/
def type : Fault → BuiltinClass
  | divByZero => .divByZero
  | outOfRange _ _ => .outOfRange
  | keyNotFound _ => .keyNotFound
  | attrNotFound _ _ => .attrNotFound
  | varNotFound _ => .varNotFound
  | argCount _ _ _ => .argCount
  | unsupportedOperands _ _ _ | unsupportedOperand _ _ | notCallable _ | notSubscriptable _
  | unhashable _ | readOnly _ | invalidIteratorItem _ | invalidSuperclass _
  | invalidArgument _ => .notImplemented
  | moduleVarNotFound _ _ => .moduleVarNotFound
  | stackOverflow _ => .stackOverflow
  | overflow _ => .overflow
  | includeError _ _ => .includeError

def code : Fault → String
  | divByZero => "RT001"
  | outOfRange _ _ => "RT002"
  | keyNotFound _ => "RT003"
  | attrNotFound _ _ => "RT004"
  | varNotFound _ => "RT005"
  | argCount _ _ _ => "RT006"
  | unsupportedOperands _ _ _ => "RT007"
  | unsupportedOperand _ _ => "RT008"
  | notCallable _ => "RT009"
  | notSubscriptable _ => "RT010"
  | unhashable _ => "RT011"
  | readOnly _ => "RT012"
  | invalidIteratorItem _ => "RT013"
  | invalidSuperclass _ => "RT014"
  | invalidArgument _ => "RT015"
  | moduleVarNotFound _ _ => "RT016"
  | stackOverflow _ => "RT017"
  | overflow _ => "RT018"
  | includeError _ _ => "RT019"

end Fault
end Rill
