import Gatehouse.Number.Shortest
import Gatehouse.Text

/-!
# Numbers

What this file fixes:

* `Number`: an integer or a double; a number keeps the kind it was written in;
* `Number.agrees`: equality by value across the kinds, an integer being rounded to a double where
  it meets one;
* `Numeral`: a number as it is written, and what it denotes. Integers from `-2^63` to `2^64 - 1`
  stay integers. Of any other numeral the digits that fit into 64 bits are rounded to a double,
  and that is multiplied or divided by a rounded power of ten.
-/

namespace Gatehouse

/-- A number: an integer from `-2^63` to `2^64 - 1`, or a finite double. -/
inductive Number where
  | int (n : Int)
  | double (d : Double)
  deriving DecidableEq, Repr

namespace Number

/-- The number as a double, rounded if it is an integer. -/
def toDouble : Number → Double
  | .int n => Double.ofInt n
  | .double d => d

/-- Equality by value: two integers exactly, all other pairs as doubles. -/
def agrees : Number → Number → Bool
  | .int a, .int b => a == b
  | a, b => a.toDouble.agrees b.toDouble

/-- The text of a number. -/
def text : Number → List Char
  | .int n => if n < 0 then '-' :: Nat.toDigits 10 n.natAbs else Nat.toDigits 10 n.natAbs
  | .double d => d.text

/-- The least integer that is kept as one, `-2^63`. -/
def leastInt : Int := -9223372036854775808

/-- The greatest integer that is kept as one, `2^64 - 1`. -/
def greatestInt : Int := 18446744073709551615

/-- The integers that are kept as integers. -/
def inRange (n : Int) : Bool := leastInt ≤ n && n ≤ greatestInt

end Number

/-! ## Numerals -/

/-- A number as it is written: sign, digits before and after the point, and a signed exponent. -/
structure Numeral where
  negative : Bool
  whole : List Char
  fraction : List Char
  exponent : Option (Bool × List Char)
  deriving DecidableEq, Repr

namespace Numeral

/-- The digits read so far, the power of ten they are multiplied by, and whether a digit has been
    dropped because it did not fit. -/
structure Digits where
  value : Nat
  exponent : Int
  full : Bool

/-- Appends a digit if the result stays below `2^64`. -/
def Digits.push? (s : Digits) (c : Char) : Option Nat :=
  let n := s.value * 10 + Text.digitValue c
  if s.full = false ∧ n < Nat.pow 2 64 then some n else none

/-- The digits before the point: one that does not fit counts as a factor of ten, and so do all
    after it. -/
def wholeDigits (ds : List Char) : Digits :=
  ds.foldl (fun s c => match s.push? c with
    | some n => ⟨n, 0, false⟩
    | none => ⟨s.value, s.exponent + 1, true⟩) ⟨0, 0, false⟩

/-- The digits after the point: from the first one that does not fit they are dropped. -/
def allDigits (n : Numeral) : Digits :=
  let start := wholeDigits n.whole
  n.fraction.foldl (fun s c => match s.push? c with
    | some v => ⟨v, s.exponent - 1, false⟩
    | none => ⟨s.value, s.exponent, true⟩) ⟨start.value, start.exponent, false⟩

/-- The power of ten the numeral names after its `e`. -/
def namedExponent (n : Numeral) : Int :=
  match n.exponent with
  | none => 0
  | some (true, ds) => -(Text.decimalValue ds : Int)
  | some (false, ds) => Text.decimalValue ds

/-- The greatest power of ten that is a finite double. -/
def greatestPower : Nat := 308

/-- The rounded power of ten. -/
def powerOfTen (k : Nat) : Double := Double.nearest false (Nat.pow 10 k) 1

/-- A double divided by `10 ^ k`, in steps of the greatest power; three steps reach zero. -/
def scaleDown : Nat → Double → Nat → Double
  | 0, d, _ => d
  | fuel + 1, d, k =>
      if k ≤ greatestPower then d.div (powerOfTen k)
      else scaleDown fuel (d.div (powerOfTen greatestPower)) (k - greatestPower)

/-- A double times `10 ^ e`, if the result is finite. -/
def scaled? (d : Double) (e : Int) : Option Double :=
  if d.significand = 0 then some d
  else if e < 0 then some (scaleDown 3 d e.natAbs)
  else if e.toNat ≤ greatestPower then (d.mul (powerOfTen e.toNat)).finite?
  else none

/-- The double a numeral denotes, if it is finite. -/
def toDouble? (n : Numeral) : Option Double :=
  let ds := n.allDigits
  let start := Double.nearest false ds.value 1
  (scaled? start (ds.exponent + n.namedExponent)).map fun d => { d with negative := n.negative }

/-- The number a numeral denotes: an integer if it is written as one and in range, where `-0` is
    a double; otherwise a double, if that is finite. -/
def toNumber? (n : Numeral) : Option Number :=
  let m := Text.decimalValue n.whole
  let i : Int := if n.negative then -(m : Int) else m
  if n.fraction.isEmpty ∧ n.exponent.isNone ∧ Number.inRange i ∧ ¬ (n.negative ∧ m = 0) then
    some (.int i)
  else n.toDouble?.map .double

end Numeral

end Gatehouse
