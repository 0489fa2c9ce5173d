/-! Tables in order of insertion. -/
namespace Rill

/-- Entries with distinct keys, in the order in which the keys were first put. -/
structure Table (α β : Type) where
  entries : Array (α × β)
deriving DecidableEq, Repr, Inhabited

namespace Table

variable {α β : Type} [BEq α]

def empty : Table α β := ⟨#[]⟩

def size (t : Table α β) : Nat := t.entries.size

def get? (t : Table α β) (key : α) : Option β := (t.entries.find? (·.1 == key)).map (·.2)

def contains (t : Table α β) (key : α) : Bool := t.entries.any (·.1 == key)

/-- Sets the entry of `key`. A key that is present keeps its place; a new one comes last. -/
def put (t : Table α β) (key : α) (value : β) : Table α β :=
  match t.entries.findIdx? (·.1 == key) with
  | some i => ⟨t.entries.modify i fun (k, _) => (k, value)⟩
  | none => ⟨t.entries.push (key, value)⟩

/-- Drops the entry of `key`. The others keep their order. -/
def erase (t : Table α β) (key : α) : Table α β := ⟨t.entries.filter fun e => !(e.1 == key)⟩

def keys (t : Table α β) : List α := t.entries.toList.map (·.1)

def values (t : Table α β) : List β := t.entries.toList.map (·.2)

def toList (t : Table α β) : List (α × β) := t.entries.toList

def ofList (entries : List (α × β)) : Table α β :=
  entries.foldl (fun t (key, value) => t.put key value) empty

end Table
end Rill
