/-!
# Finite doubles

What this file fixes:

* `Double`: a sign, a significand and a power of two, as binary64 has them;
* `Double.nearest`: the double nearest to a ratio of naturals, a tie going to the even neighbour.
  All arithmetic on doubles is this one rounding after an exact operation on naturals;
* `Double.agrees`: equality of value, decided by exact comparison at a common power of two, so
  the two zeros agree.
-/

namespace Gatehouse

/-- A finite double. Its value is `significand * 2 ^ scale`, negated if `negative`. The rounding
    below delivers `significand < 2 ^ 53` and `-1074 ≤ scale`, with `2 ^ 52 ≤ significand` unless
    the scale is the least one. -/
structure Double where
  negative : Bool
  significand : Nat
  scale : Int
  deriving DecidableEq, Repr

namespace Double

/-- The least power of two a significand is multiplied by. -/
def minScale : Int := -1074

/-- The greatest power of two a finite double's significand is multiplied by. -/
def maxScale : Int := 971

/-! ## 1. Rounding -/

/-- `num / den` rounded to a natural, a half going to the even neighbour. -/
def roundHalfEven (num den : Nat) : Nat :=
  let q := num / den
  let r := num % den
  if 2 * r < den then q
  else if den < 2 * r then q + 1
  else if q % 2 = 0 then q else q + 1

/-- The power of two at which `num / den` has 53 bits before the point, but at least the least. -/
def scaleFor (num den : Nat) : Int :=
  let guess : Int := (Nat.log2 num : Int) - (Nat.log2 den : Int) - 52
  let fits := Nat.pow 2 52 * (den * Nat.pow 2 guess.toNat) ≤ num * Nat.pow 2 (-guess).toNat
  max (if fits then guess else guess - 1) minScale

/-- The double nearest to `num / den`, without an upper bound on its scale. -/
def nearest (negative : Bool) (num den : Nat) : Double :=
  if num = 0 then ⟨negative, 0, minScale⟩
  else
    let scale := scaleFor num den
    let n := roundHalfEven (num * Nat.pow 2 (-scale).toNat) (den * Nat.pow 2 scale.toNat)
    if n = Nat.pow 2 53 then ⟨negative, Nat.pow 2 52, scale + 1⟩ else ⟨negative, n, scale⟩

/-- A rounded value as a double, if it is not beyond the greatest finite one. -/
def finite? (d : Double) : Option Double := if d.scale ≤ maxScale then some d else none

/-- The double nearest to an integer. -/
def ofInt (n : Int) : Double := nearest (decide (n < 0)) n.natAbs 1

/-! ## 2. Products and quotients, rounded once -/

/-- The power of two `2 ^ k` as numerator and denominator. -/
def powerOfTwo (k : Int) : Nat × Nat := (Nat.pow 2 k.toNat, Nat.pow 2 (-k).toNat)

/-- The rounded product. -/
def mul (a b : Double) : Double :=
  let p := powerOfTwo (a.scale + b.scale)
  nearest (a.negative != b.negative) (a.significand * b.significand * p.1) p.2

/-- The rounded quotient; the divisor is not zero. -/
def div (a b : Double) : Double :=
  let p := powerOfTwo (a.scale - b.scale)
  nearest (a.negative != b.negative) (a.significand * p.1) (b.significand * p.2)

/-! ## 3. Equality of value -/

/-- The value as an integer multiple of `2 ^ base`, for a `base` not above the scale. -/
def unitsAt (d : Double) (base : Int) : Int :=
  let n : Int := (d.significand * Nat.pow 2 (d.scale - base).toNat : Nat)
  if d.negative then -n else n

/-- The two doubles have the same value. -/
def agrees (a b : Double) : Bool :=
  a.unitsAt (min a.scale b.scale) == b.unitsAt (min a.scale b.scale)

@[simp] theorem agrees_self (a : Double) : a.agrees a = true := by simp [agrees]

theorem agrees_comm (a b : Double) : a.agrees b = b.agrees a := by
  simp only [agrees, Int.min_comm b.scale a.scale]
  rw [Bool.eq_iff_iff, beq_iff_eq, beq_iff_eq]
  exact eq_comm

/-! ## 4. Decimal literals, rounded once -/

/-- The number of decimal digits of a natural, at least one. -/
def decimalLength (n : Nat) : Nat := (Nat.toDigits 10 n).length

/-- The double nearest to `digits * 10 ^ exponent`, if it is finite. Exponents far outside the
    range of doubles are decided without computing the power. -/
def ofDecimal? (negative : Bool) (digits : Nat) (exponent : Int) : Option Double :=
  if digits = 0 then some ⟨negative, 0, minScale⟩
  else
    let top : Int := decimalLength digits + exponent
    if 400 < top then none
    else if top < -400 then some ⟨negative, 0, minScale⟩
    else
      let p := (Nat.pow 10 exponent.toNat, Nat.pow 10 (-exponent).toNat)
      (nearest negative (digits * p.1) p.2).finite?

end Double

end Gatehouse
