import Gatehouse.Number.Double

/-!
# The shortest decimal text of a double

What this file fixes:

* `Double.shortest`: of the decimals that lie closer to the double than its neighbours do, those
  with the fewest digits, and of these the nearest one. For 1, 2, … 17 digits the two points of
  the decimal grid around the value are tried; the first grid with a hit wins;
* `Decimal.text`: where a decimal is written positionally and where with an exponent.
-/

namespace Gatehouse

/-- A positive decimal: its digits as a number, without trailing zeros, and the exponent of its
    first digit. -/
structure Decimal where
  digits : List Char
  exponent : Int
  deriving DecidableEq, Repr

/-! ## 1. The layout -/

/-- Least and greatest exponent of the first digit that is written positionally. -/
structure DecimalLayout where
  leastPlain : Int
  greatestPlain : Int

namespace Decimal

/-- Numbers from `0.00001` to below `1e16` are written positionally, all others with a signed
    exponent of as many digits as it needs. -/
def layout : DecimalLayout := ⟨-5, 15⟩

/-- A run of zeros. -/
def zeros (n : Nat) : List Char := List.replicate n '0'

/-- The positional form, always with a fraction. -/
def plain (d : Decimal) : List Char :=
  if d.exponent < 0 then ['0', '.'] ++ zeros ((-d.exponent).toNat - 1) ++ d.digits
  else
    let whole := d.exponent.toNat + 1
    if d.digits.length ≤ whole then d.digits ++ zeros (whole - d.digits.length) ++ ['.', '0']
    else d.digits.take whole ++ ['.'] ++ d.digits.drop whole

/-- The form with an exponent: one digit before the point, and no point after a lone digit. -/
def scientific (d : Decimal) : List Char :=
  let mantissa := match d.digits with
    | [] => ['0']
    | [c] => [c]
    | c :: rest => c :: '.' :: rest
  let sign := if d.exponent < 0 then '-' else '+'
  mantissa ++ ['e', sign] ++ Nat.toDigits 10 d.exponent.natAbs

/-- The text of a decimal. -/
def text (d : Decimal) : List Char :=
  if layout.leastPlain ≤ d.exponent ∧ d.exponent ≤ layout.greatestPlain then d.plain
  else d.scientific

end Decimal

/-! ## 2. The digits -/

namespace Double

/-- A closed or open interval of ratios over one denominator, with the value inside it. -/
structure Vicinity where
  low : Nat
  value : Nat
  high : Nat
  den : Nat
  closed : Bool

/-- The numbers that round to a double: half way to each neighbour, the ends included iff the
    significand is even. Below a power of two the lower neighbour is half as far away. -/
def vicinity (d : Double) : Vicinity :=
  let p := powerOfTwo (d.scale - 2)
  let m := 4 * d.significand
  let below := if d.significand = Nat.pow 2 52 ∧ minScale < d.scale then m - 1 else m - 2
  ⟨below * p.1, m * p.1, (m + 2) * p.1, p.2, d.significand % 2 == 0⟩

/-- Whether `digits * 10 ^ k` lies in the interval. -/
def Vicinity.holds (v : Vicinity) (digits : Nat) (k : Int) : Bool :=
  let x := digits * Nat.pow 10 k.toNat * v.den
  let unit := Nat.pow 10 (-k).toNat
  if v.closed then v.low * unit ≤ x && x ≤ v.high * unit
  else v.low * unit < x && x < v.high * unit

/-- The exponent of the first digit of `num / den`. -/
def leadingExponent (num den : Nat) : Int :=
  let bits : Int := (Nat.log2 num : Int) - (Nat.log2 den : Int)
  let guess := bits * 30103 / 100000
  let reaches (e : Int) : Bool := den * Nat.pow 10 e.toNat ≤ num * Nat.pow 10 (-e).toNat
  if reaches (guess + 1) then guess + 1
  else if reaches guess then guess
  else guess - 1

/-- The better of the two points of the grid `10 ^ k` around the value, if one is a hit; a tie
    goes to the even one. -/
def gridHit? (v : Vicinity) (k : Int) : Option Nat :=
  let num := v.value * Nat.pow 10 (-k).toNat
  let den := v.den * Nat.pow 10 k.toNat
  let below := num / den
  let nearer := roundHalfEven num den
  let other := if nearer = below then below + 1 else below
  if v.holds nearer k then some nearer
  else if v.holds other k then some other
  else none

/-- The first hit on the grids of `n` digits and more, with its grid. -/
def search (v : Vicinity) (top : Int) : Nat → Int → Nat × Int
  | 0, k => (v.value * Nat.pow 10 (-k).toNat / (v.den * Nat.pow 10 k.toNat), k)
  | fuel + 1, k =>
      match gridHit? v k with
      | some n => (n, k)
      | none => search v top fuel (k - 1)

/-- A number's digits without the zeros at their end. -/
def significantDigits (n : Nat) : List Char :=
  ((Nat.toDigits 10 n).reverse.dropWhile (· == '0')).reverse

/-- The shortest decimal that reads back as the double; the double is not zero. -/
def shortest (d : Double) : Decimal :=
  let v := d.vicinity
  let top := leadingExponent v.value v.den
  let hit := search v top 17 top
  ⟨significantDigits hit.1, hit.2 + decimalLength hit.1 - 1⟩

/-- The text of a double: its shortest decimal, `0.0` for zero, with a sign if negative. -/
def text (d : Double) : List Char :=
  let body := if d.significand = 0 then ['0', '.', '0'] else d.shortest.text
  if d.negative then '-' :: body else body

end Double

end Gatehouse
