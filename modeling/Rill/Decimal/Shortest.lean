import Rill.Binary64

/-! The shortest decimal that reads back as a given binary number. -/
namespace Rill.Decimal

/-- The number `digits * 10 ^ exponent`. -/
structure Numeral where
  digits : Nat
  exponent : Int
deriving DecidableEq, Repr

namespace Numeral

/-- How many digits are written. -/
def width (d : Numeral) : Nat := (Nat.toDigits 10 d.digits).length

/-- The exponent if one digit stands before the point. -/
def scientificExponent (d : Numeral) : Int := d.exponent + d.width - 1

end Numeral

/-- The greatest `k` with `10 ^ k ≤ num / den`, for positive `num` and `den`. -/
def log10Floor (num den : Nat) : Int :=
  if den ≤ num then (Nat.toDigits 10 (num / den)).length - 1
  else -((Nat.toDigits 10 ((den + num - 1) / num - 1)).length : Int)

/-- The binary number `m * 2 ^ q` together with the reals that round to it. -/
structure Target where
  /-- Four times the significand. -/
  middle : Nat
  /-- Four times the lower end of the rounding interval. -/
  lower : Nat
  /-- Four times the upper end of the rounding interval. -/
  upper : Nat
  /-- Whether the ends round to the number too. -/
  closed : Bool
  /-- The unit of the three numbers above is `num / den`. -/
  num : Nat
  den : Nat

namespace Target

/-- The rounding interval of a positive finite number. Below a power of two it is half as wide. -/
def ofBinary64 (x : Binary64) : Target :=
  let m := x.significand
  let q := x.exponent - 2
  let narrow := x.fraction = 0 ∧ 1 < x.exponentField
  { middle := 4 * m
    lower := 4 * m - (if narrow then 1 else 2)
    upper := 4 * m + 2
    closed := m % 2 = 0
    num := if 0 ≤ q then Nat.pow 2 q.toNat else 1
    den := if 0 ≤ q then 1 else Nat.pow 2 (-q).toNat }

/-- The better of the two multiples of `10 ^ e` next to the number, if one of them rounds to it.
A tie goes to the larger. -/
def onGrid? (t : Target) (e : Int) : Option Numeral :=
  let a := if 0 ≤ e then t.num else t.num * Nat.pow 10 (-e).toNat
  let b := if 0 ≤ e then t.den * Nat.pow 10 e.toNat else t.den
  let inside (d : Nat) : Bool :=
    if t.closed then t.lower * a ≤ d * b && d * b ≤ t.upper * a
    else t.lower * a < d * b && d * b < t.upper * a
  let below := t.middle * a / b
  let rest := t.middle * a % b
  match inside below, inside (below + 1) with
  | true, true => some ⟨if 2 * rest < b then below else below + 1, e⟩
  | true, false => some ⟨below, e⟩
  | false, true => some ⟨below + 1, e⟩
  | false, false => none

end Target

/-- Drops zeros at the end of the digits, at most `fuel` of them. -/
def stripZeros : (fuel : Nat) → Numeral → Numeral
  | 0, d => d
  | fuel + 1, d =>
    if d.digits ≠ 0 ∧ d.digits % 10 = 0 then stripZeros fuel ⟨d.digits / 10, d.exponent + 1⟩ else d

/-- The decimal with the fewest digits that reads back as the positive finite number `x`, and of
those the nearest. Seventeen digits always suffice. -/
def shortest (x : Binary64) : Numeral :=
  let t := Target.ofBinary64 x
  let k := log10Floor (t.middle * t.num) t.den
  let found := (List.range 17).findSome? (fun n : Nat => t.onGrid? (k - n))
  stripZeros 17 (found.getD ⟨0, 0⟩)

end Rill.Decimal
