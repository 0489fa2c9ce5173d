import Rill.Host

/-! A set of host functions for sums, pairs and handles. -/
namespace Rill.Host

/-- The first argument. -/
def first (arguments : List HostValue) : HostValue := arguments.head?.getD .none

/-- Adds integers, wrapping around at the ends of their range. -/
def sumFrom (s : Store) (total : Int64) : List HostValue → Except String HostValue
  | [] => .ok (.int total)
  | .int i :: rest => sumFrom s (total + i) rest
  | other :: _ => .error ("Can't add " ++ other.debug s ++ ".")

def sum (arguments : List HostValue) : HostAction (Except String HostValue) := do
  let s ← read
  match first arguments with
  | .sequence elements => return sumFrom s 0 elements
  | other => return .error ("Expected a sequence but got " ++ other.debug s ++ ".")

/-- Reads a sequence of pairs. -/
def pairs (s : Store) : List HostValue → Except String (List (HostValue × HostValue))
  | [] => .ok []
  | .sequence [key, value] :: rest => do return (key, value) :: (← pairs s rest)
  | other :: _ => .error ("Not a pair: " ++ other.debug s)

def mappingOf (arguments : List HostValue) : HostAction (Except String HostValue) := do
  match first arguments with
  | .sequence elements => return (pairs (← read) elements).map .mapping
  | _ => return .error "Expected pairs."

def fail (arguments : List HostValue) : HostAction (Except String HostValue) := do
  match first arguments with
  | .string message => return .error message
  | _ => return .error "host failure"

def makeHandle (arguments : List HostValue) : HostAction (Except String HostValue) := do
  match first arguments with
  | .int i => return .ok (.opaqueValue (← HostAction.newHandle i))
  | _ => return .error "Expected an int."

def readHandle (arguments : List HostValue) : HostAction (Except String HostValue) := do
  let s ← read
  match first arguments with
  | .opaqueValue (.opaqueRef id) => return .ok (.int (s.handles[id]?.getD 0))
  | .opaqueValue _ => return .error "Not a handle."
  | other => return .error ("Expected a handle but got " ++ other.debug s ++ ".")

/-- One half as a number. -/
def half : Binary64 := ⟨0x3fe0000000000000⟩

def toolkit : List HostFunction :=
  [⟨"host_sum", .exactly 1, sum⟩,
    ⟨"host_same", .exactly 1, fun arguments => return .ok (first arguments)⟩,
    ⟨"host_all", .atLeast 1, fun arguments => return .ok (.sequence arguments)⟩,
    ⟨"host_count", .between 1 3, fun arguments => return .ok (.int (Int64.ofNat arguments.length))⟩,
    ⟨"host_debug", .exactly 1, fun arguments => do
      return .ok (.string ((first arguments).debug (← read)))⟩,
    ⟨"host_pairs", .exactly 0, fun _ =>
      return .ok (.mapping [(.string "a", .float half), (.string "b", .none),
        (.bool true, .sequence [])])⟩,
    ⟨"host_dict", .exactly 1, mappingOf⟩,
    ⟨"host_fail", .exactly 1, fail⟩,
    ⟨"make_handle", .exactly 1, makeHandle⟩,
    ⟨"read_handle", .exactly 1, readHandle⟩]

end Rill.Host
