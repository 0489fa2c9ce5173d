import Rill.Render
import Rill.Store.Sequence

/-! The entries of dicts. -/
namespace Rill.Store

/-- The key that a value is, if it can be one. -/
def key (value : Value) : Attempt Key := do
  match Key.ofValue? value with
  | some key => return key
  | none => fail (.unhashable ((← get).typeName value))

def dictGet? (id : Nat) (index : Value) : Attempt (Option Value) := do
  let key ← key index
  return ((← get).dict id).get? key

def dictGet (id : Nat) (index : Value) : Attempt Value := do
  match ← dictGet? id index with
  | some value => return value
  | none => fail (.keyNotFound ((← get).repr index))

def dictSet (id : Nat) (index value : Value) : Attempt Unit := do
  let key ← key index
  modifyDict id (·.put key value)

/-- Takes an entry out. -/
def dictRemove (id : Nat) (index : Value) : Attempt Value := do
  let key ← key index
  match ((← get).dict id).get? key with
  | none => fail (.keyNotFound ((← get).repr index))
  | some value =>
    modifyDict id (·.erase key)
    return value

def dictContains (id : Nat) (index : Value) : Attempt Bool := do
  let key ← key index
  return ((← get).dict id).contains key

def dictKeys (id : Nat) : Action (Array Value) := do
  return ((← get).dict id).entries.map (·.1.toValue)

def dictValues (id : Nat) : Action (Array Value) := do return ((← get).dict id).entries.map (·.2)

end Rill.Store
