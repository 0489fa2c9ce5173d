/-! Double-precision numbers by bit pattern, so that two NaNs can be told apart. -/
namespace Rill

/-- A number in the binary64 format: a sign bit, eleven exponent bits and 52 fraction bits. -/
structure Binary64 where
  bits : UInt64
deriving DecidableEq, Repr, Inhabited

namespace Binary64

def ofFloat (x : Float) : Binary64 := ⟨x.toBits⟩

def toFloat (x : Binary64) : Float := Float.ofBits x.bits

/-- The bits below the sign. -/
def magnitude (x : Binary64) : Nat := x.bits.toNat % 0x8000000000000000

def isNegative (x : Binary64) : Bool := decide (0x8000000000000000 ≤ x.bits.toNat)

/-- The biased exponent. -/
def exponentField (x : Binary64) : Nat := x.magnitude / 0x10000000000000

def fraction (x : Binary64) : Nat := x.magnitude % 0x10000000000000

def isNaN (x : Binary64) : Bool := decide (0x7ff0000000000000 < x.magnitude)

/-- A NaN whose quiet bit, the highest of its fraction, is clear. -/
def isSignaling (x : Binary64) : Bool := x.isNaN && decide (x.fraction < 0x8000000000000)

def isInfinite (x : Binary64) : Bool := x.magnitude == 0x7ff0000000000000

def isZero (x : Binary64) : Bool := x.magnitude == 0

/-- The integer part of the significand, including the hidden bit. -/
def significand (x : Binary64) : Nat :=
  if x.exponentField = 0 then x.fraction else x.fraction + 0x10000000000000

/-- A finite number is its significand times two to this power, up to its sign. -/
def exponent (x : Binary64) : Int :=
  (if x.exponentField = 0 then 1 else (x.exponentField : Int)) - 1075

/-- The number with sign `negative` and the bits `magnitude` below it. -/
def ofMagnitude (negative : Bool) (magnitude : Nat) : Binary64 :=
  ⟨UInt64.ofNat (if negative then magnitude + 0x8000000000000000 else magnitude)⟩

def zero : Binary64 := ⟨0⟩

def infinity (negative : Bool) : Binary64 := ofMagnitude negative 0x7ff0000000000000

/-- The NaN that the word `nan` denotes. -/
def nan : Binary64 := ⟨0x7ff8000000000000⟩

/-- The NaN that an operation without a meaningful result gives. -/
def invalid : Binary64 := ⟨0xfff8000000000000⟩

/-- A NaN with its quiet bit set. -/
def quiet (x : Binary64) : Binary64 := ⟨x.bits ||| 0x0008000000000000⟩

/-- Flips the sign, of a NaN too. -/
def neg (x : Binary64) : Binary64 := ⟨x.bits ^^^ 0x8000000000000000⟩

/-- Position on the number line: numbers compare as these integers do, and both zeros have one. -/
def ordinal (x : Binary64) : Int :=
  if x.isNegative then -(x.magnitude : Int) else (x.magnitude : Int)

/-- Numeric equality: a NaN differs from everything. -/
def eq (x y : Binary64) : Bool := !x.isNaN && !y.isNaN && x.ordinal == y.ordinal

/-- The order of two numbers, if neither is a NaN. -/
def compare? (x y : Binary64) : Option Ordering :=
  if x.isNaN || y.isNaN then none else some (compare x.ordinal y.ordinal)

/-- An operation on two numbers: the first NaN among them is the result, and a result without
meaning is `invalid`. -/
def lift₂ (op : Float → Float → Float) (x y : Binary64) : Binary64 :=
  if x.isNaN then x.quiet
  else if y.isNaN then y.quiet
  else
    let r := ofFloat (op x.toFloat y.toFloat)
    if r.isNaN then invalid else r

def add : Binary64 → Binary64 → Binary64 := lift₂ (· + ·)

def sub : Binary64 → Binary64 → Binary64 := lift₂ (· - ·)

def mul : Binary64 → Binary64 → Binary64 := lift₂ (· * ·)

def div : Binary64 → Binary64 → Binary64 := lift₂ (· / ·)

/-- One to any power is one, and so is anything to the power zero. There the other operand may be a
NaN, but not a signaling one. -/
def pow (x y : Binary64) : Binary64 :=
  if y.isZero && !x.isSignaling || x.bits == 0x3ff0000000000000 && !y.isSignaling then
    ⟨0x3ff0000000000000⟩
  else lift₂ Float.pow x y

/-- The number `± m * 2 ^ q`, cut towards zero if it is not representable. -/
def ofParts (negative : Bool) (m : Nat) (q : Int) : Binary64 :=
  if m = 0 then ofMagnitude negative 0
  else
    let top : Int := m.log2 + q
    if top > 1023 then infinity negative
    else if top < -1022 then
      ofMagnitude negative (if 0 ≤ q + 1074 then m <<< (q + 1074).toNat else m >>> (-(q + 1074)).toNat)
    else
      let significand := if m.log2 ≤ 52 then m <<< (52 - m.log2) else m >>> (m.log2 - 52)
      ofMagnitude negative ((top + 1022).toNat * 0x10000000000000 + significand)

/-- The greatest `k` with `2 ^ k ≤ num / den`, for positive `num` and `den`. -/
def log2Floor (num den : Nat) : Int :=
  let k : Int := (num.log2 : Int) - den.log2
  if den <<< k.toNat ≤ num <<< (-k).toNat then k else k - 1

/-- The quotient rounded to the nearest integer, ties to even. -/
def roundDiv (a b : Nat) : Nat :=
  let m := a / b
  let rest := a % b
  if b < 2 * rest ∨ b = 2 * rest ∧ m % 2 = 1 then m + 1 else m

/-- The number nearest to `num / den`, ties to even. -/
def ofRatio (num den : Nat) : Binary64 :=
  if num = 0 then zero
  else
    let q := max (log2Floor num den - 52) (-1074)
    let m := roundDiv (num <<< (-q).toNat) (den <<< q.toNat)
    ofMagnitude false (min (m + (q + 1074).toNat * 0x10000000000000) 0x7ff0000000000000)

/-- The nearest number to an integer, ties to even. -/
def ofInt64 (i : Int64) : Binary64 :=
  let x := ofRatio i.toInt.natAbs 1
  if i < 0 then x.neg else x

/-- The greatest integral number that is not above `x`. -/
def floor (x : Binary64) : Binary64 :=
  if x.isNaN then x.quiet
  else if x.isInfinite || 0 ≤ x.exponent then x
  else
    let unit := Nat.pow 2 (-x.exponent).toNat
    let whole := x.significand / unit
    if x.isNegative && x.significand % unit != 0 then ofParts true (whole + 1) 0
    else ofParts x.isNegative whole 0

/-- The remainder of a division that rounds towards zero; it has the sign of `x` and is exact. -/
def rem (x y : Binary64) : Binary64 :=
  if x.isNaN then x.quiet
  else if y.isNaN then y.quiet
  else if x.isInfinite || y.isZero then invalid
  else if y.isInfinite then x
  else
    let q := min x.exponent y.exponent
    let m := x.significand <<< (x.exponent - q).toNat
    let n := y.significand <<< (y.exponent - q).toNat
    ofParts x.isNegative (m % n) q

/-- The integer part of a finite number, rounded towards zero. -/
def truncate (x : Binary64) : Int :=
  let whole : Nat :=
    if 0 ≤ x.exponent then x.significand <<< x.exponent.toNat
    else x.significand >>> (-x.exponent).toNat
  if x.isNegative then -(whole : Int) else whole

end Binary64
end Rill
