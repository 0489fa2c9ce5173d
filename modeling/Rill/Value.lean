import Rill.Binary64
import Rill.Builtin

/-! Values of running programs. -/
namespace Rill

/-- A function that the host provides: its signature and its number among those of the host. -/
structure HostRef where
  name : String
  arity : Arity
  number : Nat
deriving DecidableEq, Repr

/-- A function that is not written in the language itself. -/
inductive Native where
  | builtin (b : Builtin)
  | host (h : HostRef)
deriving DecidableEq, Repr

namespace Native

def name : Native → String
  | builtin b => b.name
  | host h => h.name

def arity : Native → Arity
  | builtin b => b.arity
  | host h => h.arity

end Native

/-- A value. What can change, and what has an identity of its own, is a number in the store. -/
inductive Value where
  | null
  | bool (b : Bool)
  | int (i : Int64)
  | float (x : Binary64)
  | str (s : String)
  | list (id : Nat)
  | dict (id : Nat)
  | function (id : Nat)
  | native (f : Native)
  /-- A native function with its first argument. -/
  | bound (f : Native) (receiver : Value)
  | type (id : Nat)
  | object (id : Nat)
  /-- One step of an iterator. Two items are the same only if made at once. -/
  | item (id : Nat) (inner : Value)
  | module (id : Nat)
  /-- Something the host keeps. -/
  | opaqueRef (id : Nat)
deriving DecidableEq, Repr, Inhabited

namespace Value

/-- Whether a value is equal to others by content and not by identity. -/
def isAtomic : Value → Bool
  | null | bool _ | int _ | float _ | str _ => true
  | _ => false

/-- Equality without overloads: atoms by content, an integer equal to the same number as a float,
all else by identity. -/
def same : Value → Value → Bool
  | null, null => true
  | bool a, bool b => a == b
  | int a, int b => a == b
  | float a, float b => a.eq b
  | int a, float b => (Binary64.ofInt64 a).eq b
  | float a, int b => (Binary64.ofInt64 b).eq a
  | str a, str b => a == b
  | list a, list b | dict a, dict b | function a, function b | type a, type b | object a, object b
  | item a _, item b _ | module a, module b | opaqueRef a, opaqueRef b => a == b
  | native f, native g => decide (f = g)
  | bound f a, bound g b => decide (f = g) && same a b
  | _, _ => false

end Value

/-- What a dict can be indexed by. Numbers are told apart by their bits, except that there is one
zero. -/
inductive Key where
  | null
  | bool (b : Bool)
  | int (i : Int64)
  | float (x : Binary64)
  | str (s : String)
deriving DecidableEq, Repr

namespace Key

def ofValue? : Value → Option Key
  | .null => some null
  | .bool b => some (bool b)
  | .int i => some (int i)
  | .float x => some (float (if x.isZero then Binary64.zero else x))
  | .str s => some (str s)
  | _ => none

def toValue : Key → Value
  | null => .null
  | bool b => .bool b
  | int i => .int i
  | float x => .float x
  | str s => .str s

end Key

/-- A list or dict by its number. -/
inductive Container where
  | list (id : Nat)
  | dict (id : Nat)
deriving DecidableEq, Repr

end Rill
