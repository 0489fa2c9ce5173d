import Rill.Store

/-! Frames of variables. -/
namespace Rill.Store

def frame (s : Store) (id : Nat) : Frame := s.frames[id]?.getD default

def newFrame (f : Frame) : Action Nat :=
  modifyGet fun s => (s.frames.size, { s with frames := s.frames.push f })

/-- A frame without a parent. -/
def newRoot : Action Nat := newFrame ⟨Table.empty, none, false⟩

/-- An empty frame inside another. -/
def newScope (parent : Nat) : Action Nat := newFrame ⟨Table.empty, some parent, false⟩

/-- An empty frame inside another, for the body of a class or module. -/
def newNamespace (parent : Nat) : Action Nat := newFrame ⟨Table.empty, some parent, true⟩

/-- A frame with the variables that another has at this time. Both see each other's writes to these,
but not each other's new names. -/
def snapshot (id : Nat) : Action Nat := do newFrame ((← get).frame id)

def isRoot (s : Store) (id : Nat) : Bool := (s.frame id).parent.isNone

def isNamespace (s : Store) (id : Nat) : Bool := (s.frame id).isNamespace

/-- The outermost frame around a frame. The parent of a frame was made before it. -/
def root (s : Store) (id : Nat) : Nat :=
  match (s.frame id).parent with
  | none => id
  | some parent => if parent < id then s.root parent else id
termination_by id

/-- The cell of the nearest variable called `name`. -/
def cell? (s : Store) (id : Nat) (name : String) : Option Nat :=
  match s.frames[id]? with
  | none => none
  | some f =>
    match f.names.get? name with
    | some cell => some cell
    | none =>
      match f.parent with
      | none => none
      | some parent => if parent < id then s.cell? parent name else none
termination_by id

/-- The value of the nearest variable called `name`. -/
def read? (s : Store) (id : Nat) (name : String) : Option Value := do s.cells[← s.cell? id name]?

def writeCell (cell : Nat) (value : Value) : Action Unit :=
  modify fun s => { s with cells := s.cells.setIfInBounds cell value }

/-- Binds `name` in this very frame: writes the variable if the frame has it, else makes it. -/
def bind (id : Nat) (name : String) (value : Value) : Action Unit := do
  match ((← get).frame id).names.get? name with
  | some cell => writeCell cell value
  | none =>
    modify fun s =>
      let cell := s.cells.size
      { s with
        cells := s.cells.push value
        frames := s.frames.modify id fun f => { f with names := f.names.put name cell } }

/-- Writes the nearest variable called `name`, and says whether there is one. -/
def assign (id : Nat) (name : String) (value : Value) : Action Bool := do
  match (← get).cell? id name with
  | some cell => do
    writeCell cell value
    return true
  | none => return false

/-- The variables of this very frame with their values, in the order of their making. -/
def bindings (s : Store) (id : Nat) : List (String × Value) :=
  (s.frame id).names.toList.map fun (name, cell) => (name, s.cells[cell]?.getD .null)

/-- The frame in which a function made in `id` looks its variables up: the frame itself if it is
outermost, else what it holds by now. -/
def capture (id : Nat) : Action Nat := do if (← get).isRoot id then return id else snapshot id

/-- The names in a frame, for a developer. -/
def frameOutline (s : Store) (id : Nat) : Outline :=
  .record "Environment"
    [("names", .seq ((s.frame id).names.keys.map .text)), ("global", .bool (s.isRoot id))]

end Rill.Store
