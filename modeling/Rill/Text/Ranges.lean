/-! Sets of characters given by their boundaries. -/
namespace Rill.Text

/-- Whether `code` lies in the set whose boundaries are `bounds` in increasing order: the first
boundary opens a range, the second closes it, and so on. -/
def inRanges (bounds : Array Nat) (code : Nat) : Bool :=
  bounds.foldl (fun inside b => if b ≤ code then !inside else inside) false

end Rill.Text
