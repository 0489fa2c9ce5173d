/-! The classes and functions that every program starts with. -/
namespace Rill

/-- How many arguments a function accepts. -/
structure Arity where
  least : Nat
  /-- Without a bound there may be any number. -/
  most : Option Nat
deriving DecidableEq, Repr

namespace Arity

def exactly (n : Nat) : Arity := ⟨n, some n⟩

def between (least most : Nat) : Arity := ⟨least, some most⟩

def atLeast (n : Nat) : Arity := ⟨n, none⟩

def accepts (a : Arity) (n : Nat) : Bool :=
  decide (a.least ≤ n) && (match a.most with
    | some most => decide (n ≤ most)
    | none => true)

/-- The arguments still needed once the first `n` are given. -/
def without (a : Arity) (n : Nat) : Arity := ⟨a.least - n, a.most.map (· - n)⟩

def describe (a : Arity) : String :=
  match a.most with
  | some most => if most = a.least then toString most else s!"{a.least} to {most}"
  | none => s!"at least {a.least}"

end Arity

inductive BuiltinClass where
  | object | exception | divByZero | outOfRange | keyNotFound | attrNotFound | varNotFound
  | argCount | notImplemented | moduleVarNotFound | stackOverflow | overflow | includeError
  | list | dict | string | listIterator
deriving DecidableEq, Repr

namespace BuiltinClass

/-- All built-in classes, each after the class it derives from. -/
def all : List BuiltinClass :=
  [object, exception, divByZero, outOfRange, keyNotFound, attrNotFound, varNotFound, argCount,
    notImplemented, moduleVarNotFound, stackOverflow, overflow, includeError, list, dict, string,
    listIterator]

/-- The position in `all`. -/
def number : BuiltinClass → Nat
  | object => 0
  | exception => 1
  | divByZero => 2
  | outOfRange => 3
  | keyNotFound => 4
  | attrNotFound => 5
  | varNotFound => 6
  | argCount => 7
  | notImplemented => 8
  | moduleVarNotFound => 9
  | stackOverflow => 10
  | overflow => 11
  | includeError => 12
  | list => 13
  | dict => 14
  | string => 15
  | listIterator => 16

theorem all_getElem?_number (c : BuiltinClass) : all[c.number]? = some c := by
  cases c <;> rfl

def name : BuiltinClass → String
  | object => "Object"
  | exception => "Exception"
  | divByZero => "DivByZero"
  | outOfRange => "OutOfRange"
  | keyNotFound => "KeyNotFound"
  | attrNotFound => "AttrNotFound"
  | varNotFound => "VarNotFound"
  | argCount => "ArgCount"
  | notImplemented => "NotImplemented"
  | moduleVarNotFound => "ModuleVarNotFound"
  | stackOverflow => "StackOverflow"
  | overflow => "Overflow"
  | includeError => "IncludeError"
  | list => "List"
  | dict => "Dict"
  | string => "String"
  | listIterator => "ListIterator"

def superclass : BuiltinClass → Option BuiltinClass
  | object => none
  | exception | list | dict | string | listIterator => some object
  | _ => some exception

/-- The class called `name`. -/
def ofName? (name : String) : Option BuiltinClass := all.find? (·.name == name)

/-- Whether `c` is `ancestor` or derives from it. -/
def derivesFrom (c ancestor : BuiltinClass) : Bool :=
  decide (c = ancestor) || (match c.superclass with
    | none => false
    | some s => decide (s = ancestor) || s.superclass == some ancestor)

end BuiltinClass

/-- Functions that are global variables at the start. -/
inductive GlobalFunction where
  | print | str | dump | len | iter | next | item | raise | exit | range | type | isinstance
  | int | float
deriving DecidableEq, Repr

namespace GlobalFunction

/-- All of them, in the order of their variables. -/
def all : List GlobalFunction :=
  [print, str, dump, len, iter, next, item, raise, exit, range, type, isinstance, int, float]

def name : GlobalFunction → String
  | print => "print"
  | str => "str"
  | dump => "dump"
  | len => "len"
  | iter => "iter"
  | next => "next"
  | item => "Item"
  | raise => "raise"
  | exit => "exit"
  | range => "range"
  | type => "type"
  | isinstance => "isinstance"
  | int => "int"
  | float => "float"

def arity : GlobalFunction → Arity
  | print => .atLeast 0
  | exit => .between 0 1
  | range => .between 1 3
  | isinstance => .exactly 2
  | str | dump | len | iter | next | item | raise | type | int | float => .exactly 1

end GlobalFunction

inductive ExceptionMethod where
  | init | str
deriving DecidableEq, Repr

namespace ExceptionMethod

def all : List ExceptionMethod := [init, str]

def name : ExceptionMethod → String
  | init => "__init__"
  | str => "__str__"

def arity : ExceptionMethod → Arity
  | init => .between 1 2
  | str => .exactly 1

end ExceptionMethod

inductive ListMethod where
  | get | set | length | push | insert | remove | pop | contains | map | filter | reduce | iter
deriving DecidableEq, Repr

namespace ListMethod

def all : List ListMethod :=
  [get, set, length, push, insert, remove, pop, contains, map, filter, reduce, iter]

def name : ListMethod → String
  | get => "get"
  | set => "set"
  | length => "length"
  | push => "push"
  | insert => "insert"
  | remove => "remove"
  | pop => "pop"
  | contains => "contains"
  | map => "map"
  | filter => "filter"
  | reduce => "reduce"
  | iter => "iter"

def arity : ListMethod → Arity
  | length | pop | iter => .exactly 1
  | get | push | remove | contains | map | filter => .exactly 2
  | set | insert => .exactly 3
  | reduce => .between 2 3

end ListMethod

inductive DictMethod where
  | get | set | length | remove | contains | keys | values | iter
deriving DecidableEq, Repr

namespace DictMethod

def all : List DictMethod := [get, set, length, remove, contains, keys, values, iter]

def name : DictMethod → String
  | get => "get"
  | set => "set"
  | length => "length"
  | remove => "remove"
  | contains => "contains"
  | keys => "keys"
  | values => "values"
  | iter => "iter"

def arity : DictMethod → Arity
  | length | keys | values | iter => .exactly 1
  | remove | contains => .exactly 2
  | set => .exactly 3
  | get => .between 2 3

end DictMethod

inductive StringMethod where
  | length | upper | lower | split | iter
deriving DecidableEq, Repr

namespace StringMethod

def all : List StringMethod := [length, upper, lower, split, iter]

def name : StringMethod → String
  | length => "length"
  | upper => "upper"
  | lower => "lower"
  | split => "split"
  | iter => "iter"

def arity : StringMethod → Arity
  | length | upper | lower | iter => .exactly 1
  | split => .between 1 2

end StringMethod

inductive IteratorMethod where
  | next | iter
deriving DecidableEq, Repr

namespace IteratorMethod

def all : List IteratorMethod := [next, iter]

def name : IteratorMethod → String
  | next => "next"
  | iter => "iter"

end IteratorMethod

/-- Built-in functions and methods. A method takes its receiver as the first argument. -/
inductive Builtin where
  | global (f : GlobalFunction)
  | exception (f : ExceptionMethod)
  | list (f : ListMethod)
  | dict (f : DictMethod)
  | string (f : StringMethod)
  | iterator (f : IteratorMethod)
deriving DecidableEq, Repr

namespace Builtin

def name : Builtin → String
  | global f => f.name
  | exception f => f.name
  | list f => f.name
  | dict f => f.name
  | string f => f.name
  | iterator f => f.name

/-- The arguments accepted, the receiver counted. -/
def arity : Builtin → Arity
  | global f => f.arity
  | exception f => f.arity
  | list f => f.arity
  | dict f => f.arity
  | string f => f.arity
  | iterator _ => .exactly 1

end Builtin

namespace BuiltinClass

/-- The methods of a class itself, in order. -/
def methods : BuiltinClass → List Builtin
  | exception => ExceptionMethod.all.map .exception
  | list => ListMethod.all.map .list
  | dict => DictMethod.all.map .dict
  | string => StringMethod.all.map .string
  | listIterator => IteratorMethod.all.map .iterator
  | _ => []

end BuiltinClass
end Rill
