/-! Integer arithmetic of 64 bits that gives no result where the exact one does not fit. -/
namespace Rill.Exact

/-- The integer as a word, if it fits. -/
def ofInt? (i : Int) : Option Int64 :=
  if Int64.minValue.toInt ≤ i ∧ i ≤ Int64.maxValue.toInt then some (Int64.ofInt i) else none

/-- The integer, if it fits into 128 bits. -/
def wide? (i : Int) : Option Int :=
  if (BitVec.intMin 128).toInt ≤ i ∧ i ≤ (BitVec.intMax 128).toInt then some i else none

def add? (a b : Int64) : Option Int64 := ofInt? (a.toInt + b.toInt)

def sub? (a b : Int64) : Option Int64 := ofInt? (a.toInt - b.toInt)

def mul? (a b : Int64) : Option Int64 := ofInt? (a.toInt * b.toInt)

def neg? (a : Int64) : Option Int64 := ofInt? (-a.toInt)

/-- The quotient without its fraction. -/
def div? (a b : Int64) : Option Int64 := if b = 0 then none else ofInt? (a.toInt.tdiv b.toInt)

/-- What a division leaves, with the sign of the dividend. There is no remainder of a division that
does not fit, though it would be zero. -/
def rem? (a b : Int64) : Option Int64 := do
  let _ ← div? a b
  ofInt? (a.toInt.tmod b.toInt)

/-- How an operation on words leaves the range. -/
inductive Excess where
  /-- It is checked, and the program is told. -/
  | noticed
  /-- It is relied on to stay in the range. -/
  | unnoticed
deriving DecidableEq, Repr

/-- The result of a checked operation. -/
def checked : Option Int64 → Except Excess Int64
  | some i => .ok i
  | none => .error .noticed

/-- The result of an operation that is relied on to stay in the range. -/
def relied : Option Int64 → Except Excess Int64
  | some i => .ok i
  | none => .error .unnoticed

/-- The quotient rounded down, for a divisor other than zero. Without its fraction it is one too
large where that was negative. -/
def floorDiv (a b : Int64) : Except Excess Int64 := do
  let quotient ← checked (div? a b)
  let remainder ← relied (rem? a b)
  if remainder ≠ 0 ∧ ¬(a < 0 ↔ b < 0) then relied (sub? quotient 1) else return quotient

/-- The remainder with the sign of the divisor, which is not zero. -/
def mod (a b : Int64) : Except Excess Int64 :=
  let remainder := (rem? a b).getD 0
  if remainder ≠ 0 ∧ ¬(remainder < 0 ↔ b < 0) then relied (add? remainder b) else .ok remainder

/-- The product of `acc` and a power, for an exponent other than zero. The base is squared until the
exponent is one, and not once more, since that square need not fit. -/
def powFrom? (acc base : Int64) (exponent : Nat) : Option Int64 :=
  if exponent ≤ 1 then mul? acc base
  else do
    let acc ← if exponent % 2 = 1 then mul? acc base else some acc
    let square ← mul? base base
    powFrom? acc square (exponent / 2)
termination_by exponent

/-- The power for an exponent that is not negative. Of an exponent of more than 32 bits no more than
its last digit matters, since only the powers of 0, 1 and -1 stay in the range. -/
def pow? (a b : Int64) : Option Int64 :=
  let exponent := b.toInt.toNat
  if exponent < UInt32.size then
    if exponent = 0 then some 1 else powFrom? 1 a exponent
  else if a = 0 ∨ a = 1 then some a
  else if a = -1 then some (if exponent % 2 = 0 then 1 else -1)
  else none

/-- Shifting left by fewer than 64 places. What is pushed out must come back. -/
def shiftLeft? (a b : Int64) : Option Int64 :=
  if 0 ≤ b ∧ b < 64 then
    let shifted := a <<< b
    if shifted >>> b = a then some shifted else none
  else none

/-- Shifting right by fewer than 64 places. -/
def shiftRight? (a b : Int64) : Option Int64 := if 0 ≤ b ∧ b < 64 then some (a >>> b) else none

end Rill.Exact
