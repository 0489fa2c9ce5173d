/-! Stretches of a source text, in bytes. -/
namespace Rill.Text

/-- The `length` bytes of a source that begin at offset `start`. -/
structure Span where
  start : Nat
  length : Nat
deriving DecidableEq, Repr, Inhabited

namespace Span

/-- The offset just after the last byte. -/
def stop (s : Span) : Nat := s.start + s.length

/-- The bytes from `start` up to, not including, `stop`. -/
def between (start stop : Nat) : Span := ⟨start, stop - start⟩

/-- The least span that covers both. -/
def merge (s t : Span) : Span := between (min s.start t.start) (max s.stop t.stop)

theorem stop_between {a b : Nat} (h : a ≤ b) : (between a b).stop = b := by
  simp only [stop, between]
  omega

theorem start_merge (s t : Span) : (s.merge t).start = min s.start t.start := rfl

theorem stop_merge (s t : Span) : (s.merge t).stop = max s.stop t.stop := by
  refine stop_between ?_
  simp only [stop]
  omega

end Span

/-- The number of bytes of `cs` in UTF-8. -/
def byteLength : List Char → Nat
  | [] => 0
  | c :: cs => c.utf8Size + byteLength cs

@[simp] theorem byteLength_nil : byteLength [] = 0 := rfl

@[simp] theorem byteLength_cons (c : Char) (cs : List Char) :
    byteLength (c :: cs) = c.utf8Size + byteLength cs := rfl

@[simp] theorem byteLength_append (cs ds : List Char) :
    byteLength (cs ++ ds) = byteLength cs + byteLength ds := by
  induction cs with
  | nil => simp
  | cons c cs ih => simp [ih, Nat.add_assoc]

end Rill.Text
