import Rill.Decimal.Notation
import Rill.Store
import Rill.Text.Quoted

/-! Values as text. -/
namespace Rill

/-- What stands for a container inside itself. -/
def Container.mark : Container → String
  | .list _ => "[...]"
  | .dict _ => "\x7b...\x7d"

/-- Where a rendering finds what values consist of. Looking at it may run the program's own code. -/
structure Renderer (m : Type → Type) where
  list : Nat → m (Array Value)
  dict : Nat → m (Table Key Value)
  /-- The text of an instance; the flag asks for the form with quotes. -/
  object : Nat → Bool → m String
  /-- The text of a function, class or module. -/
  named : Value → m String
  /-- The text where the nesting is deeper than foreseen. -/
  tooDeep : m String

namespace Renderer

variable {m : Type → Type} [Monad m]

/-- A text in its form with or without quotes. -/
def string (quoted : Bool) (s : String) : String := if quoted then Text.quote s else s

/-- The text of a value, given that of containers. -/
def value (r : Renderer m) (container : Container → m String) (quoted : Bool) :
    Value → m String
  | .null => pure "null"
  | .bool b => pure (toString b)
  | .int i => pure (toString i.toInt)
  | .float x => pure (Decimal.write .shown x)
  | .str s => pure (string quoted s)
  | .list id => container (.list id)
  | .dict id => container (.dict id)
  | .item _ inner => do return "Item(" ++ (← value r container true inner) ++ ")"
  | .native f | .bound f _ => pure ("<native function " ++ f.name ++ ">")
  | .object id => r.object id quoted
  | .opaqueRef _ => pure "<opaque>"
  | .function id => r.named (.function id)
  | .type id => r.named (.type id)
  | .module id => r.named (.module id)

/-- The text of a container inside the containers `active`. One that is inside itself is a mark
there. At most `depth` further containers are entered. -/
def container (r : Renderer m) : (depth : Nat) → (active : List Container) → Container → m String
  | 0, active, c => if active.contains c then pure c.mark else r.tooDeep
  | depth + 1, active, c =>
    if active.contains c then pure c.mark
    else
      let inner := value r (container r depth (c :: active)) true
      match c with
      | .list id => do
        let parts ← (← r.list id).toList.mapM inner
        return "[" ++ ", ".intercalate parts ++ "]"
      | .dict id => do
        let parts ← (← r.dict id).toList.mapM fun (key, v) => do
          let k ← inner key.toValue
          return k ++ ": " ++ (← inner v)
        return "\x7b" ++ ", ".intercalate parts ++ "\x7d"

end Renderer

namespace Store

def named (s : Store) : Value → String
  | .function id => "<function " ++ s.functionName id ++ ">"
  | .type id => "<class " ++ s.className id ++ ">"
  | .module id => "<module " ++ s.moduleName id ++ ">"
  | _ => ""

/-- The text of an instance whose class does not say otherwise. -/
def instanceText (s : Store) (id : Nat) : String := "<" ++ s.instanceClassName id ++ " instance>"

/-- Rendering from what is in the store, without running any code. -/
def renderer (s : Store) : Renderer Id where
  list := s.list
  dict := s.dict
  object id _ := s.instanceText id
  named := s.named
  tooDeep := ""

/-- The number of containers, which bounds how deeply they can nest before one is inside itself. -/
def containers (s : Store) : Nat := s.lists.size + s.dicts.size

/-- The text of a value, without the program's own renderings of instances. A container that is not in
the store is empty, so that one level more than there are containers is always enough. -/
def render (s : Store) (quoted : Bool) (v : Value) : String :=
  Id.run (s.renderer.value (s.renderer.container (s.containers + 1) []) quoted v)

/-- The text that is printed. -/
def display (s : Store) (v : Value) : String := s.render false v

/-- The text that shows strings as literals. -/
def repr (s : Store) (v : Value) : String := s.render true v

/-- The text that shows the kind of a value too. -/
def debug (s : Store) (v : Value) : String :=
  match v with
  | .null => "Null"
  | .bool b => "Bool(" ++ toString b ++ ")"
  | .int i => "Int(" ++ toString i.toInt ++ ")"
  | .float x => "Float(" ++ Decimal.write .outlined x ++ ")"
  | .str t => "String(" ++ Outline.quoted t ++ ")"
  | .opaqueRef _ => "Opaque"
  | .list _ => "List(" ++ s.repr v ++ ")"
  | .dict _ => "Dict(" ++ s.repr v ++ ")"
  | .function _ => "Function(" ++ s.repr v ++ ")"
  | .native _ | .bound _ _ => "NativeFunction(" ++ s.repr v ++ ")"
  | .type _ => "Class(" ++ s.repr v ++ ")"
  | .object _ => "Instance(" ++ s.repr v ++ ")"
  | .item _ _ => "Item(" ++ s.repr v ++ ")"
  | .module _ => "Module(" ++ s.repr v ++ ")"

end Store
end Rill
