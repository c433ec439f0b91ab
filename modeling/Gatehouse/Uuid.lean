import Gatehouse.Text

/-!
# UUIDs and their spellings

What this file fixes:

* `Uuid`: 32 hexadecimal digits;
* `Uuid.parse?`: the spellings that name a UUID. The digits stand alone or in hyphenated groups of
  8, 4, 4, 4 and 12; the hyphenated form may be put in braces or after `urn:uuid:`. The case of
  letters is free;
* `Uuid.text`: the one spelling that is printed, lower-case and hyphenated;
* `Uuid.ofBytes?`: the UUID made of random bytes.
-/

namespace Gatehouse

/-- A UUID: its 32 hexadecimal digits, the most significant one first. -/
structure Uuid where
  digits : List (Fin 16)
  size : digits.length = 32
  deriving DecidableEq, Repr

namespace Uuid

/-- The UUID of the given digits, if there are 32. -/
def ofDigits? (ds : List (Fin 16)) : Option Uuid :=
  if h : ds.length = 32 then some ⟨ds, h⟩ else none

/-- The UUID whose digits are all zero. -/
def zero : Uuid := ⟨List.replicate 32 0, rfl⟩

/-! ## 1. Reading -/

/-- The lengths of the hyphenated groups. -/
def groupSizes : List Nat := [8, 4, 4, 4, 12]

/-- The characters of the five hyphenated groups, without the hyphens. -/
def hyphenated? (cs : List Char) : Option (List Char) :=
  let groups := Text.splitOn '-' cs
  if groups.map List.length = groupSizes then some groups.flatten else none

/-- The name that a UUID may be put after, in any case. -/
def urn : List Char := "urn:uuid:".toList

/-- The characters of a spelling that stand for digits. -/
def digitChars? (cs : List Char) : Option (List Char) :=
  match cs with
  | '\x7b' :: rest =>
      if rest.getLast? = some '\x7d' then hyphenated? rest.dropLast else none
  | cs =>
      if (cs.take urn.length).map Char.toLower = urn then hyphenated? (cs.drop urn.length)
      else if cs.length = 32 then some cs
      else hyphenated? cs

/-- The UUID that a text spells. -/
def parse? (s : String) : Option Uuid :=
  (digitChars? s.toList).bind fun cs => (cs.mapM Text.hexValue?).bind ofDigits?

/-- Two texts spell the same UUID. -/
def sameSpelled (a b : String) : Bool :=
  match parse? a, parse? b with
  | some u, some v => u == v
  | _, _ => false

/-! ## 2. Printing -/

/-- The groups of a list of digits, with a hyphen between two of them. -/
def hyphenate : List Nat → List Char → List Char
  | [], cs => cs
  | [_], cs => cs
  | n :: sizes, cs => cs.take n ++ '-' :: hyphenate sizes (cs.drop n)

/-- The lower-case hyphenated spelling. -/
def text (u : Uuid) : String :=
  String.ofList (hyphenate groupSizes (u.digits.map Text.hexDigit))

/-! ## 3. Random UUIDs -/

/-- The UUID is a random one: its version digit is 4. -/
def isRandom (u : Uuid) : Bool := u.digits[12]? == some 4

/-- The random UUID made of 16 bytes: the version digit is set to 4, and the variant digit to one of
    8 to 11. -/
def ofBytes? (bytes : List UInt8) : Option Uuid :=
  let ds := bytes.flatMap fun b => [Fin.ofNat 16 (b.toNat / 16), Fin.ofNat 16 b.toNat]
  ofDigits? ((ds.set 12 4).set 16 (Fin.ofNat 16 (8 + (ds.getD 16 0).val % 4)))

end Uuid

end Gatehouse
