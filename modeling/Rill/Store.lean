import Rill.Syntax.Tree
import Rill.Table
import Rill.Value

/-! Everything a running program has made. -/
namespace Rill

/-- Variables by name. A variable is the number of a cell, so that frames can share it. -/
structure Frame where
  names : Table String Nat
  /-- The frame in which names are looked up that this one lacks. -/
  parent : Option Nat
  /-- Whether this is the body of a class or module, where assignments always bind here. -/
  isNamespace : Bool
deriving Inhabited

/-- A function or method written in the language. -/
structure Function where
  decl : Syntax.FunctionDecl
  /-- The frame it was made in. -/
  closure : Nat
  /-- The value of `this`, once known. -/
  receiver : Option Value
  /-- Whether it takes its receiver as the first argument. -/
  isMethod : Bool

structure Class where
  name : String
  attributes : Table String Value
  superclass : Option Nat
deriving DecidableEq, Inhabited

structure Instance where
  type : Nat
  fields : Table String Value
deriving Inhabited

structure Module where
  name : String
  attributes : Table String Value
deriving Inhabited

/-- The objects of a program by kind. Each is named by its position; nothing is ever dropped. -/
structure Store where
  cells : Array Value
  frames : Array Frame
  lists : Array (Array Value)
  dicts : Array (Table Key Value)
  functions : Array Function
  classes : Array Class
  instances : Array Instance
  modules : Array Module
  /-- How many items were made. -/
  items : Nat
  /-- Integers that the host keeps behind opaque values. -/
  handles : Array Int64
deriving Inhabited

namespace Function

def name (f : Function) : String := f.decl.name.name

def arity (f : Function) : Nat := f.decl.parameters.length

end Function

namespace Store

def empty : Store := ⟨#[], #[], #[], #[], #[], #[], #[], #[], 0, #[]⟩

def list (s : Store) (id : Nat) : Array Value := s.lists[id]?.getD #[]

def dict (s : Store) (id : Nat) : Table Key Value := s.dicts[id]?.getD Table.empty

def className (s : Store) (id : Nat) : String := (s.classes[id]?.map Class.name).getD ""

def functionName (s : Store) (id : Nat) : String := (s.functions[id]?.map Function.name).getD ""

def moduleName (s : Store) (id : Nat) : String := (s.modules[id]?.map Module.name).getD ""

/-- The class of an instance. -/
def typeOf (s : Store) (id : Nat) : Nat := (s.instances[id]?.map Instance.type).getD 0

def instanceClassName (s : Store) (id : Nat) : String := s.className (s.typeOf id)

/-- The name of the type of a value, which for an instance is the name of its class. -/
def typeName (s : Store) : Value → String
  | .null => "null"
  | .bool _ => "bool"
  | .int _ => "int"
  | .float _ => "float"
  | .str _ => "string"
  | .list _ => "list"
  | .dict _ => "dict"
  | .function _ => "function"
  | .native _ | .bound _ _ => "native function"
  | .type _ => "class"
  | .object id => s.instanceClassName id
  | .item _ _ => "item"
  | .module _ => "module"
  | .opaqueRef _ => "opaque"

/-- Whether a value counts as true, without overloads. -/
def isTruthy (s : Store) : Value → Bool
  | .null => false
  | .bool b => b
  | .int i => i != 0
  | .float x => !x.isZero
  | .str t => !t.isEmpty
  | .list id => !(s.list id).isEmpty
  | .dict id => (s.dict id).size != 0
  | _ => true

/-- What to do with a store. -/
abbrev Action := StateM Store

def newList (elements : Array Value) : Action Value :=
  modifyGet fun s => (.list s.lists.size, { s with lists := s.lists.push elements })

def newDict (entries : Table Key Value) : Action Value :=
  modifyGet fun s => (.dict s.dicts.size, { s with dicts := s.dicts.push entries })

def newItem (inner : Value) : Action Value :=
  modifyGet fun s => (.item s.items inner, { s with items := s.items + 1 })

def newFunction (f : Function) : Action Value :=
  modifyGet fun s => (.function s.functions.size, { s with functions := s.functions.push f })

def newClass (c : Class) : Action Value :=
  modifyGet fun s => (.type s.classes.size, { s with classes := s.classes.push c })

def newModule (m : Module) : Action Value :=
  modifyGet fun s => (.module s.modules.size, { s with modules := s.modules.push m })

/-- A new instance, by its number. -/
def newInstance (type : Nat) (fields : Table String Value) : Action Nat :=
  modifyGet fun s =>
    (s.instances.size, { s with instances := s.instances.push ⟨type, fields⟩ })

def field? (s : Store) (id : Nat) (name : String) : Option Value :=
  s.instances[id]? >>= (·.fields.get? name)

def setField (id : Nat) (name : String) (value : Value) : Action Unit :=
  modify fun s => { s with
    instances := s.instances.modify id fun o => { o with fields := o.fields.put name value } }

/-- Applies `f` to the elements of a list. -/
def modifyList (id : Nat) (f : Array Value → Array Value) : Action Unit :=
  modify fun s => { s with lists := s.lists.modify id f }

/-- Applies `f` to the entries of a dict. -/
def modifyDict (id : Nat) (f : Table Key Value → Table Key Value) : Action Unit :=
  modify fun s => { s with dicts := s.dicts.modify id f }

/-- Looks an attribute up on a class, then on those it derives from. A class derives only from
classes made before it. -/
def attribute? (s : Store) (type : Nat) (name : String) : Option Value :=
  match s.classes[type]? with
  | none => none
  | some c =>
    match c.attributes.get? name with
    | some value => some value
    | none =>
      match c.superclass with
      | none => none
      | some parent => if parent < type then s.attribute? parent name else none
termination_by type

/-- Whether a class is `ancestor` or derives from it. -/
def derivesFrom (s : Store) (type ancestor : Nat) : Bool :=
  if type = ancestor then true
  else
    match s.classes[type]? >>= Class.superclass with
    | none => false
    | some parent => if parent < type then s.derivesFrom parent ancestor else false
termination_by type

end Store
end Rill
