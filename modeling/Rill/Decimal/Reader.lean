import Rill.Binary64
import Rill.Exact

/-! Reading decimal numerals. -/
namespace Rill.Decimal

/-- The value of a run of decimal digits. -/
def ofDigits (cs : List Char) : Nat :=
  cs.foldl (fun n c => 10 * n + (c.toNat - '0'.toNat)) 0

/-- The nearest number to `± m * 10 ^ e`. Exponents far outside the range need no arithmetic. -/
def nearest (negative : Bool) (m : Nat) (e : Int) : Binary64 :=
  let top := e + (Nat.toDigits 10 m).length
  let x : Binary64 :=
    if m = 0 ∨ top < -400 then Binary64.zero
    else if 400 < top then Binary64.infinity false
    else Binary64.ofRatio (m * Nat.pow 10 e.toNat) (Nat.pow 10 (-e).toNat)
  if negative then x.neg else x

/-- The digits that decide which number is nearest, and how many places were cut off behind them. Half
way between two neighbours lies a numeral of fewer than 800 digits, so of the digits after these it only
matters whether they are all zero, and one digit stands for them. -/
def decisive (digits : List Char) : List Char × Nat :=
  let digits := digits.dropWhile (· == '0')
  let rest := digits.drop 800
  if rest.isEmpty then (digits, 0)
  else (digits.take 800 ++ [if rest.all (· == '0') then '0' else '1'], rest.length - 1)

/-- The nearest number to a numeral whose last digit counts `10 ^ e`. -/
def nearestToDigits (negative : Bool) (digits : List Char) (e : Int) : Binary64 :=
  let (digits, cut) := decisive digits
  nearest negative (ofDigits digits) (e + cut)

/-- Splits an optional sign off; the flag says whether it is a minus. -/
def splitSign : List Char → Bool × List Char
  | '+' :: cs => (false, cs)
  | '-' :: cs => (true, cs)
  | cs => (false, cs)

/-- The exponent that digits denote. It is large enough once it has reached `0x10000`, and what
follows is passed over. -/
def exponentOfDigits (cs : List Char) : Nat :=
  cs.foldl (fun n c => if n < 0x10000 then 10 * n + (c.toNat - '0'.toNat) else n) 0

/-- Reads the part of a numeral after its digits: nothing, or an exponent. -/
def exponent? : List Char → Option Int
  | [] => some 0
  | c :: cs =>
    if c = 'e' ∨ c = 'E' then
      let (negative, digits) := splitSign cs
      if digits.isEmpty || !digits.all Char.isDigit then none
      else
        let e : Int := exponentOfDigits digits
        some (if negative then -e else e)
    else none

/-- Reads digits with an optional point among them and an optional exponent. -/
def magnitude? (negative : Bool) (cs : List Char) : Option Binary64 :=
  let whole := cs.takeWhile Char.isDigit
  let rest := cs.dropWhile Char.isDigit
  let places : List Char := match rest with
    | '.' :: rest => rest.takeWhile Char.isDigit
    | _ => []
  let tail : List Char := match rest with
    | '.' :: rest => rest.dropWhile Char.isDigit
    | rest => rest
  if whole.isEmpty && places.isEmpty then none
  else (exponent? tail).map fun e => nearestToDigits negative (whole ++ places) (e - places.length)

/-- Reads a number: a numeral, `inf`, `infinity` or `nan` in any case, with an optional sign. -/
def read? (s : String) : Option Binary64 :=
  let (negative, cs) := splitSign s.toList
  let signed (x : Binary64) : Binary64 := if negative then x.neg else x
  let word := String.ofList (cs.map Char.toLower)
  if word = "inf" ∨ word = "infinity" then some (Binary64.infinity negative)
  else if word = "nan" then some (signed Binary64.nan)
  else magnitude? negative cs

/-- Reads an integer of 64 bits: digits with an optional sign. From the 20th digit on, leading zeros
apart, it is out of range. -/
def readInt64? (s : String) : Option Int64 :=
  let (negative, cs) := splitSign s.toList
  if cs.isEmpty || !cs.all Char.isDigit then none
  else
    let digits := cs.dropWhile (· == '0')
    if 19 < digits.length then none
    else Exact.ofInt? (if negative then -(ofDigits digits : Int) else ofDigits digits)

end Rill.Decimal
