import Rill.Store.Dict

/-! Values and functions of the program around the language. -/
namespace Rill

/-- A value as the host sees it. -/
inductive HostValue where
  | none
  | bool (b : Bool)
  | int (i : Int64)
  | float (x : Binary64)
  | string (s : String)
  | sequence (elements : List HostValue)
  | mapping (entries : List (HostValue × HostValue))
  /-- A value that the host can only pass on. -/
  | opaqueValue (v : Value)
deriving Inhabited

namespace HostValue

/-- What the host sees of a value, with at most `depth` containers inside each other. -/
def ofValueAt (s : Store) : (depth : Nat) → Value → HostValue
  | _, .null => none
  | _, .bool b => bool b
  | _, .int i => int i
  | _, .float x => float x
  | _, .str t => string t
  | depth + 1, .list id => sequence ((s.list id).toList.map (ofValueAt s depth))
  | depth + 1, .dict id =>
    mapping ((s.dict id).toList.map fun (key, v) =>
      (ofValueAt s depth key.toValue, ofValueAt s depth v))
  | _, v => opaqueValue v

/-- What the host sees of a value in which no container is inside itself. -/
def ofValue (s : Store) (v : Value) : HostValue := ofValueAt s (s.containers + 1) v

mutual

/-- Makes the value that the host means. The keys of mappings have to be fit for dicts. -/
def toValue : HostValue → Store.Attempt Value
  | none => return .null
  | bool b => return .bool b
  | int i => return .int i
  | float x => return .float x
  | string s => return .str s
  | sequence elements => do
    let values ← toValues elements
    Store.newList values.toArray
  | mapping entries => do
    let table ← toTable Table.empty entries
    Store.newDict table
  | opaqueValue v => return v

def toValues : List HostValue → Store.Attempt (List Value)
  | [] => return []
  | h :: hs => do
    let v ← h.toValue
    let vs ← toValues hs
    return v :: vs

def toTable (table : Table Key Value) : List (HostValue × HostValue) →
    Store.Attempt (Table Key Value)
  | [] => return table
  | (k, h) :: hs => do
    let key ← Store.key (← k.toValue)
    let value ← h.toValue
    toTable (table.put key value) hs

end

mutual

def outline (s : Store) : HostValue → Outline
  | none => .leaf "None"
  | bool b => .tagged "Bool" [.bool b]
  | int i => .tagged "Int" [.int i.toInt]
  | float x => .tagged "Float" [.leaf (Decimal.write .outlined x)]
  | string t => .tagged "String" [.text t]
  | sequence elements => .tagged "Sequence" [.seq (outlines s elements)]
  | mapping entries => .tagged "Mapping" [.seq (entryOutlines s entries)]
  | opaqueValue v => .tagged "Opaque" [.tagged "Opaque" [.leaf (s.repr v)]]

def outlines (s : Store) : List HostValue → List Outline
  | [] => []
  | h :: hs => h.outline s :: outlines s hs

def entryOutlines (s : Store) : List (HostValue × HostValue) → List Outline
  | [] => []
  | (k, h) :: hs => .tagged "" [k.outline s, h.outline s] :: entryOutlines s hs

end

/-- The value as a developer of the host sees it. -/
def debug (s : Store) (h : HostValue) : String := (h.outline s).compact

end HostValue

/-- What the host can do: look at what the program has made, and keep integers of its own. -/
abbrev HostAction := ReaderT Store (StateM (Array Int64))

namespace HostAction

/-- What the host does to a store. -/
def onStore {α : Type} (action : HostAction α) : Store.Action α :=
  modifyGet fun s =>
    match action s s.handles with
    | (a, handles) => (a, { s with handles })

/-- A fresh opaque value with an integer behind it. -/
def newHandle (i : Int64) : HostAction Value :=
  modifyGet fun handles => (.opaqueRef handles.size, handles.push i)

end HostAction

/-- A function that the host provides. It gets the arguments as host values and may fail with a
message. -/
structure HostFunction where
  name : String
  arity : Arity
  run : List HostValue → HostAction (Except String HostValue)

end Rill
