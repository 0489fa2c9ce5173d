import Rill.Fault
import Rill.Store

/-! Positions in sequences, counted from either end, and the elements of lists. -/
namespace Rill.Store

/-- The position that an index means in a sequence of the given length. Negative indices count from
the end. -/
def resolveIndex (index : Int64) (length : Nat) : Except Fault Nat :=
  let i := index.toInt
  let position := if i < 0 then i + length else i
  if 0 ≤ position ∧ position < length then .ok position.toNat else .error (.outOfRange i length)

/-- The position at which an insertion takes place. The index may equal the length. -/
def resolveInsertion (index : Int64) (length : Nat) : Except Fault Nat :=
  if index.toInt = length then .ok length else resolveIndex index length

/-- Why an attempt gave no result. -/
inductive Trouble where
  | fault (f : Fault)
  /-- An access out of bounds. Whatever a program does, the language itself is to blame for it. -/
  | defect

/-- What may fail on a store. -/
abbrev Attempt := EStateM Trouble Store

def fail {α : Type} (fault : Fault) : Attempt α := throw (.fault fault)

/-- Relies on a condition. -/
def demand (condition : Prop) [Decidable condition] : Attempt Unit :=
  if condition then return () else throw .defect

instance : MonadLift Action Attempt where
  monadLift action s :=
    match action s with
    | (a, s) => .ok a s

instance : MonadLift (Except Fault) Attempt where
  monadLift e s :=
    match e with
    | .ok a => .ok a s
    | .error fault => .error (.fault fault) s

def listLength (id : Nat) : Attempt Nat := do return ((← get).list id).size

/-- The element at a position, which has to be in bounds. -/
def elementAt (id position : Nat) : Attempt Value := do
  match ((← get).list id)[position]? with
  | some value => return value
  | none => throw .defect

def listGet (id : Nat) (index : Int64) : Attempt Value := do
  let position ← resolveIndex index (← listLength id)
  elementAt id position

def listSet (id : Nat) (index : Int64) (value : Value) : Attempt Unit := do
  let length ← listLength id
  let position ← resolveIndex index length
  demand (position < length)
  modifyList id (·.setIfInBounds position value)

def listPush (id : Nat) (value : Value) : Attempt Unit := modifyList id (·.push value)

/-- Inserts before the position that the index means. -/
def listInsert (id : Nat) (index : Int64) (value : Value) : Attempt Unit := do
  let length ← listLength id
  let position ← resolveInsertion index length
  demand (position ≤ length)
  modifyList id (·.insertIdxIfInBounds position value)

/-- Takes an element out. -/
def listRemove (id : Nat) (index : Int64) : Attempt Value := do
  let position ← resolveIndex index (← listLength id)
  let value ← elementAt id position
  modifyList id (·.eraseIdxIfInBounds position)
  return value

/-- Takes the last element out. -/
def listPop (id : Nat) : Attempt Value := do
  match ((← get).list id).back? with
  | none => fail (.outOfRange (-1) 0)
  | some value =>
    modifyList id (·.pop)
    return value

end Rill.Store
