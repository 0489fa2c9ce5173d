import Rill.Decimal.Shortest

/-! How numbers are written: positionally or with an exponent. -/
namespace Rill.Decimal

/-- The choices left open by "the shortest digits that read back". -/
structure Style where
  /-- Least and greatest exponents of ten written positionally. -/
  leastPositional : Int
  greatestPositional : Int
  /-- Whether a positive exponent has a sign. -/
  plusSign : Bool
  /-- The least number of digits of an exponent. -/
  exponentWidth : Nat
  nan : String

/-- Numbers as a program shows them: `1.5`, `1e+20`, `1.5e-05`, `nan`. -/
def Style.shown : Style := ⟨-4, 15, true, 2, "nan"⟩

/-- Numbers as a developer sees them: `1.5`, `1e20`, `1.5e-5`, `NaN`. -/
def Style.outlined : Style := ⟨-4, 15, false, 1, "NaN"⟩

/-- The digits with a point, and at least one digit on both of its sides. -/
def positional (d : Numeral) : String :=
  let digits := Nat.toDigits 10 d.digits
  if 0 ≤ d.exponent then
    String.ofList (digits ++ List.replicate d.exponent.toNat '0') ++ ".0"
  else
    let places := (-d.exponent).toNat
    if places < digits.length then
      String.ofList (digits.take (digits.length - places)) ++ "." ++
        String.ofList (digits.drop (digits.length - places))
    else
      "0." ++ String.ofList (List.replicate (places - digits.length) '0' ++ digits)

/-- The digits with a point after the first, and the exponent. -/
def scientific (style : Style) (d : Numeral) : String :=
  let digits := Nat.toDigits 10 d.digits
  let fractional := digits.drop 1
  let e := d.scientificExponent
  let size := Nat.toDigits 10 e.natAbs
  let padded := List.replicate (style.exponentWidth - size.length) '0' ++ size
  String.ofList (digits.take 1) ++
    (if fractional.isEmpty then "" else "." ++ String.ofList fractional) ++ "e" ++
    (if e < 0 then "-" else if style.plusSign then "+" else "") ++ String.ofList padded

/-- The text of a number. -/
def write (style : Style) (x : Binary64) : String :=
  if x.isNaN then style.nan
  else
    let sign := if x.isNegative then "-" else ""
    if x.isInfinite then sign ++ "inf"
    else if x.isZero then sign ++ "0.0"
    else
      let d := shortest (Binary64.ofMagnitude false x.magnitude)
      let e := d.scientificExponent
      if style.leastPositional ≤ e ∧ e ≤ style.greatestPositional then sign ++ positional d
      else sign ++ scientific style d

end Rill.Decimal
