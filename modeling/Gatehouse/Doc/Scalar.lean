import Gatehouse.Value

/-!
# Scalars and what they resolve to

What this file fixes:

* `Atom`: a value without parts. One is *unreadable*: it stands for a text that no type accepts,
  such as a number out of range. Infinities and the number that is none are one atom;
* `Tag`: what may stand in front of a value to say how it is meant. A tag can be garbled, and then
  it names nothing;
* `Scalar`: an untyped scalar, with the style it is written in and its tag;
* `Scalar.resolve`: the atom that an untyped reader makes of it. Only a plain scalar, or one with a
  tag of its own kind, resolves to anything else than a string;
* the typed readings of a scalar: `bool?`, `natural?`, `isNone`, `isNothing`.
-/

namespace Gatehouse

/-- A value without parts, as a reader finds it. -/
inductive Atom where
  | unreadable
  | null
  | bool (b : Bool)
  | number (n : Number)
  | nonFinite
  | string (s : String)
  deriving DecidableEq, Repr

namespace Atom

/-- The free value of an atom; a number that is not finite is null. -/
def value? : Atom → Option Value
  | .unreadable => none
  | .null => some .null
  | .bool b => some (.bool b)
  | .number n => some (.number n)
  | .nonFinite => some .null
  | .string s => some (.string s)

end Atom

/-- How a scalar is written. -/
inductive Style where
  | plain
  | quoted
  | literal
  | folded
  deriving DecidableEq, Repr

/-- A tag that is written out. In a garbled one, some bytes stand for no characters; its text has
    the replacement character in their place. -/
structure Tag where
  text : String
  garbled : Bool
  deriving DecidableEq, Repr

namespace Tag

/-- The tag that forces a kind. -/
def core (kind : String) : Tag := ⟨"tag:yaml.org,2002:" ++ kind, false⟩

/-- A tag in front of another one. -/
def append (a b : Tag) : Tag := ⟨a.text ++ b.text, a.garbled || b.garbled⟩

/-- The tag is marked as a local one. -/
def isMarked (t : Tag) : Bool := t.text.toList.head? == some '!'

/-- The name of a local tag. -/
def localName? (t : Tag) : Option String :=
  if t.isMarked && !t.garbled then some (String.ofList (t.text.toList.drop 1)) else none

end Tag

/-- An untyped scalar. -/
structure Scalar where
  text : String
  style : Style
  tag : Option Tag
  deriving DecidableEq, Repr

namespace Scalar

/-! ## 1. Words -/

/-- The words for null. -/
def nullWords : List String := ["~", "null", "Null", "NULL"]

/-- The boolean that a word stands for. -/
def boolWord? (s : String) : Option Bool :=
  if ["true", "True", "TRUE"].contains s then some true
  else if ["false", "False", "FALSE"].contains s then some false
  else none

/-! ## 2. Integers -/

/-- The number that the digits write in a base, if they are digits and at least one. -/
def digitsIn? (base : Nat) (cs : List Char) : Option Nat :=
  if cs.isEmpty then none
  else cs.foldlM (fun n c => (Text.hexValue? c).bind fun d =>
    if d.val < base then some (n * base + d.val) else none) 0

/-- A text without one sign in front. -/
def unsigned : List Char → List Char
  | '+' :: cs => cs
  | '-' :: cs => cs
  | cs => cs

/-- Digits with a needless zero in front are not read as a number. -/
def hasLeadingZero (cs : List Char) : Bool :=
  match unsigned cs with
  | '0' :: c :: rest => (c :: rest).all Char.isDigit
  | _ => false

/-- The magnitude written after the sign, in the base that its first characters name. -/
def magnitude? (whole : List Char) : List Char → Option Nat
  | '0' :: 'x' :: rest => digitsIn? 16 rest
  | '0' :: 'o' :: rest => digitsIn? 8 rest
  | '0' :: 'b' :: rest => digitsIn? 2 rest
  | body => if hasLeadingZero whole then none else digitsIn? 10 body

/-- The number of a scalar without a minus sign. -/
def naturalOf? (cs : List Char) : Option Nat :=
  match cs with
  | '+' :: rest => magnitude? cs rest
  | _ => magnitude? cs cs

/-- The magnitude of a scalar with a minus sign. -/
def negatedOf? (cs : List Char) : Option Nat :=
  match cs with
  | '-' :: rest => magnitude? cs rest
  | _ => none

/-- The integer of a scalar. One that does not fit into 64 bits is unreadable, and one that does
    not fit into 128 bits is no integer. -/
def integer? (cs : List Char) : Option Atom :=
  match naturalOf? cs, negatedOf? cs with
  | some n, _ =>
      if n < Nat.pow 2 64 then some (.number (.int n))
      else if n < Nat.pow 2 128 then some .unreadable
      else none
  | none, some n =>
      if n ≤ Nat.pow 2 63 then some (.number (.int (-(n : Int))))
      else if n ≤ Nat.pow 2 127 then some .unreadable
      else none
  | none, none => none

/-! ## 3. Doubles -/

/-- The exponent after the mantissa: nothing, or a mark and digits with an optional sign. -/
def exponent? : List Char → Option Int
  | [] => some 0
  | c :: cs =>
      if c = 'e' ∨ c = 'E' then
        let ds := unsigned cs
        let negative := cs.head? == some '-'
        if !ds.isEmpty && ds.all Char.isDigit then
          let n : Int := Text.decimalValue ds
          some (if negative then -n else n)
        else none
      else none

/-- The finite double that an unsigned text writes: digits with an optional point, at least one
    digit in all, and an optional exponent. -/
def unsignedDouble? (negative : Bool) (cs : List Char) : Option Double :=
  let whole := cs.takeWhile Char.isDigit
  let rest := cs.dropWhile Char.isDigit
  let afterPoint := match rest with
    | '.' :: more => more
    | _ => []
  let fraction := afterPoint.takeWhile Char.isDigit
  let tail := match rest with
    | '.' :: more => more.dropWhile Char.isDigit
    | other => other
  if whole.isEmpty && fraction.isEmpty then none
  else (exponent? tail).bind fun e =>
    Double.ofDecimal? negative (Text.decimalValue (whole ++ fraction)) (e - fraction.length)

/-- The finite double of a scalar. -/
def double? : List Char → Option Double
  | '+' :: cs => unsignedDouble? false cs
  | '-' :: cs => unsignedDouble? true cs
  | cs => unsignedDouble? false cs

/-- The words for numbers that are not finite. -/
def nonFiniteWords : List String :=
  [".inf", ".Inf", ".INF", "+.inf", "+.Inf", "+.INF", "-.inf", "-.Inf", "-.INF",
    ".nan", ".NaN", ".NAN"]

/-- The number of a scalar that is not an integer. -/
def float? (s : String) : Option Atom :=
  if nonFiniteWords.contains s then some .nonFinite
  else (double? s.toList).map fun d => .number (.double d)

/-! ## 4. Untyped reading -/

/-- What a plain scalar resolves to. -/
def resolvePlain (s : String) : Atom :=
  if s.isEmpty || nullWords.contains s then .null
  else match boolWord? s with
    | some b => .bool b
    | none =>
        match integer? s.toList with
        | some a => a
        | none =>
            if hasLeadingZero s.toList then .string s
            else (float? s).getD (.string s)

/-- What a scalar resolves to where no tag forces a kind. -/
def resolveFree (s : Scalar) : Atom :=
  if s.style = .plain then resolvePlain s.text else .string s.text

/-- What an untyped reader makes of a scalar. A scalar with a local name is unreadable, and a
    garbled mark in front of one changes nothing. -/
def resolve (s : Scalar) : Atom :=
  match s.tag with
  | none => s.resolveFree
  | some tag =>
      if tag = .core "bool" then
        match boolWord? s.text with
        | some b => .bool b
        | none => .unreadable
      else if tag = .core "int" then (integer? s.text.toList).getD .unreadable
      else if tag = .core "float" then (float? s.text).getD .unreadable
      else if tag = .core "null" then
        if nullWords.contains s.text then .null else .unreadable
      else if tag.localName?.isSome then .unreadable
      else if tag.isMarked then s.resolveFree
      else .string s.text

/-! ## 5. Typed reading -/

/-- The scalar is written so that it can be read as the given kind. -/
def isOpenTo (kind : String) (s : Scalar) : Bool :=
  s.style == .plain || (s.style == .literal && s.tag == some (.core kind))

/-- The scalar as a boolean. -/
def bool? (s : Scalar) : Option Bool := if s.isOpenTo "bool" then boolWord? s.text else none

/-- The scalar as a natural number of 64 bits. -/
def natural? (s : Scalar) : Option Nat :=
  if s.isOpenTo "int" then (naturalOf? s.text.toList).filter (· < Nat.pow 2 64) else none

/-- Nothing is written where the scalar stands. -/
def isNothing (s : Scalar) : Bool := s.text.isEmpty && s.style == .plain

/-- What stands for an optional value: none, some value, or neither. -/
inductive Presence where
  | none
  | some
  | refused
  deriving DecidableEq, Repr

/-- Whether the scalar stands for a value where one is optional. -/
def presence (s : Scalar) : Presence :=
  if s.style ≠ .plain then .some
  else match s.tag with
    | some tag =>
        if tag ≠ .core "null" then .some
        else if nullWords.contains s.text then .none else .refused
    | none => if s.text.isEmpty || nullWords.contains s.text then .none else .some

/-- The name that the scalar picks where one of several names is due: its text, or the name of a
    local tag in front of nothing. -/
def choice? (s : Scalar) : Option String :=
  match s.tag.bind Tag.localName? with
  | some name =>
      if s.style = .plain ∧ (s.text.isEmpty ∨ nullWords.contains s.text) then some name else none
  | none => some s.text

end Scalar

end Gatehouse
