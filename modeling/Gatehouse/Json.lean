import Gatehouse.Doc

/-!
# JSON texts

What this file fixes:

* `Json.read?`: the document of a JSON text. The grammar is the strict one: no mark at the start,
  no comma at the end of a list, no needless zeros, only four blanks, no raw control characters;
* a well-formed part that has no value is unreadable instead of wrong, so that a field nobody asks
  for does no harm: a number beyond the doubles, an escape for half a pair of code units, and any
  list or object nested deeper than 127 levels;
* `Json.value?`: the free value of a JSON text.
-/

namespace Gatehouse.Json

/-! ## 1. Blanks and numbers -/

/-- The characters that may stand between tokens. -/
def isBlank (c : Char) : Bool := c == ' ' || c == '\t' || c == '\n' || c == '\r'

/-- A text without the blanks at its start. -/
def skipBlanks (cs : List Char) : List Char := cs.dropWhile isBlank

/-- A run of digits and what follows it. -/
def digits (cs : List Char) : List Char × List Char :=
  (cs.takeWhile Char.isDigit, cs.dropWhile Char.isDigit)

/-- The digits before the point: a lone zero, or digits that do not start with one. -/
def whole? (cs : List Char) : Option (List Char × List Char) :=
  match digits cs with
  | ([], _) => none
  | ('0' :: _ :: _, _) => none
  | (ds, rest) => some (ds, rest)

/-- A point and the digits after it, if there is a point. -/
def fraction? : List Char → Option (List Char × List Char)
  | '.' :: cs =>
      match digits cs with
      | ([], _) => none
      | (ds, rest) => some (ds, rest)
  | cs => some ([], cs)

/-- The sign of an exponent and what follows it. -/
def exponentSign : List Char → Bool × List Char
  | '-' :: cs => (true, cs)
  | '+' :: cs => (false, cs)
  | cs => (false, cs)

/-- A mark and the digits of an exponent, if there is a mark. -/
def exponent? : List Char → Option (Option (Bool × List Char) × List Char)
  | [] => some (none, [])
  | c :: cs =>
      if c = 'e' ∨ c = 'E' then
        let signed := exponentSign cs
        match digits signed.2 with
        | ([], _) => none
        | (ds, rest) => some (some (signed.1, ds), rest)
      else some (none, c :: cs)

/-- A numeral without its sign, and what follows it. -/
def unsignedNumeral? (negative : Bool) (cs : List Char) : Option (Numeral × List Char) :=
  (whole? cs).bind fun (whole, afterWhole) =>
    (fraction? afterWhole).bind fun (fraction, afterFraction) =>
      (exponent? afterFraction).map fun (exponent, rest) =>
        (⟨negative, whole, fraction, exponent⟩, rest)

/-- A numeral and what follows it. -/
def numeral? : List Char → Option (Numeral × List Char)
  | '-' :: cs => unsignedNumeral? true cs
  | cs => unsignedNumeral? false cs

/-- The atom of a numeral. -/
def numberAtom (n : Numeral) : Atom :=
  match n.toNumber? with
  | some m => .number m
  | none => .unreadable

/-! ## 2. Strings -/

/-- A part of a string: a character, or a code unit of 16 bits given by an escape. -/
inductive Piece where
  | char (c : Char)
  | unit (n : Nat)
  deriving DecidableEq, Repr

/-- The number of four hexadecimal digits. -/
def unitOf? (a b c d : Char) : Option Nat :=
  match Text.hexValue? a, Text.hexValue? b, Text.hexValue? c, Text.hexValue? d with
  | some w, some x, some y, some z => some (((w.val * 16 + x.val) * 16 + y.val) * 16 + z.val)
  | _, _, _, _ => none

/-- The character of a one-letter escape. -/
def escapeOf? (c : Char) : Option Char :=
  if c = '"' ∨ c = '\\' ∨ c = '/' then some c
  else if c = 'b' then some (Char.ofNat 8)
  else if c = 'f' then some (Char.ofNat 12)
  else if c = 'n' then some '\n'
  else if c = 'r' then some '\r'
  else if c = 't' then some '\t'
  else none

/-- The pieces of a string up to its closing quote, and what follows that. -/
def pieces? : List Char → Option (List Piece × List Char)
  | [] => none
  | '"' :: rest => some ([], rest)
  | '\\' :: 'u' :: a :: b :: c :: d :: rest =>
      match unitOf? a b c d, pieces? rest with
      | some n, some (ps, more) => some (.unit n :: ps, more)
      | _, _ => none
  | '\\' :: e :: rest =>
      match escapeOf? e, pieces? rest with
      | some c, some (ps, more) => some (.char c :: ps, more)
      | _, _ => none
  | c :: rest =>
      if c.toNat < 0x20 ∨ c = '\\' then none
      else (pieces? rest).map fun p => (.char c :: p.1, p.2)

/-- The unit is the first half of a pair. -/
def isHigh (n : Nat) : Bool := 0xD800 ≤ n && n < 0xDC00

/-- The unit is the second half of a pair. -/
def isLow (n : Nat) : Bool := 0xDC00 ≤ n && n < 0xE000

/-- The characters of a string, unless it has half a pair. -/
def joinPieces? : List Piece → Option (List Char)
  | [] => some []
  | .char c :: ps => (joinPieces? ps).map (c :: ·)
  | .unit n :: ps =>
      if isHigh n then
        match ps with
        | .unit m :: more =>
            if isLow m then
              (joinPieces? more).map
                (Char.ofNat (0x10000 + (n - 0xD800) * 0x400 + (m - 0xDC00)) :: ·)
            else none
        | _ => none
      else if isLow n then none
      else (joinPieces? ps).map (Char.ofNat n :: ·)

/-- A string after its opening quote, if it has a value, and what follows it. -/
def string? (cs : List Char) : Option (Option String × List Char) :=
  (pieces? cs).map fun p => ((joinPieces? p.1).map String.ofList, p.2)

/-- The atom of a string. -/
def stringAtom : Option String → Atom
  | some s => .string s
  | none => .unreadable

/-! ## 3. Documents -/

/-- The object of some entries; a key without value spoils it. -/
def objectOf (entries : List (Option String × Doc)) : Doc :=
  match entries.mapM fun e => e.1.map fun k => (k, e.2) with
  | some es => .object es
  | none => .unreadable

/-- A key with the colon after it, and what follows. -/
def key? (cs : List Char) : Option (Option String × List Char) :=
  match skipBlanks cs with
  | '"' :: rest =>
      (string? rest).bind fun (k, more) =>
        match skipBlanks more with
        | ':' :: tail => some (k, tail)
        | _ => none
  | _ => none

mutual

/-- A value and what follows it; `fuel` bounds the steps. -/
def readValue : Nat → List Char → Option (Doc × List Char)
  | 0, _ => none
  | fuel + 1, cs =>
      match skipBlanks cs with
      | 'n' :: 'u' :: 'l' :: 'l' :: rest => some (.atom .null, rest)
      | 't' :: 'r' :: 'u' :: 'e' :: rest => some (.atom (.bool true), rest)
      | 'f' :: 'a' :: 'l' :: 's' :: 'e' :: rest => some (.atom (.bool false), rest)
      | '"' :: rest => (string? rest).map fun p => (.atom (stringAtom p.1), p.2)
      | '[' :: rest =>
          match skipBlanks rest with
          | ']' :: more => some (.array [], more)
          | _ => (readItems fuel rest).map fun p => (.array p.1, p.2)
      | '\x7b' :: rest =>
          match skipBlanks rest with
          | '\x7d' :: more => some (.object [], more)
          | _ => (readEntries fuel rest).map fun p => (objectOf p.1, p.2)
      | other => (numeral? other).map fun p => (.atom (numberAtom p.1), p.2)

/-- Items up to the closing bracket, and what follows it. -/
def readItems : Nat → List Char → Option (List Doc × List Char)
  | 0, _ => none
  | fuel + 1, cs =>
      match readValue fuel cs with
      | none => none
      | some (v, rest) =>
          match skipBlanks rest with
          | ']' :: more => some ([v], more)
          | ',' :: more => (readItems fuel more).map fun p => (v :: p.1, p.2)
          | _ => none

/-- Entries up to the closing brace, and what follows it. -/
def readEntries : Nat → List Char → Option (List (Option String × Doc) × List Char)
  | 0, _ => none
  | fuel + 1, cs =>
      match key? cs with
      | none => none
      | some (k, afterKey) =>
          match readValue fuel afterKey with
          | none => none
          | some (v, rest) =>
              match skipBlanks rest with
              | '\x7d' :: more => some ([(k, v)], more)
              | ',' :: more => (readEntries fuel more).map fun p => ((k, v) :: p.1, p.2)
              | _ => none

end

/-! ## 4. The limit of nesting -/

mutual

/-- The document, where lists and objects below the given number of levels are unreadable. -/
def within (levels : Nat) : Doc → Doc
  | .array items =>
      match levels with
      | 0 => .unreadable
      | n + 1 => .array (itemsWithin n items)
  | .object entries =>
      match levels with
      | 0 => .unreadable
      | n + 1 => .object (entriesWithin n entries)
  | .atom a => .atom a
  | .scalar s => .scalar s
  | .sequence items => .sequence items
  | .mapping entries => .mapping entries
  | .tagged d => .tagged d

/-- The items, each held to the number of levels. -/
def itemsWithin (levels : Nat) : List Doc → List Doc
  | [] => []
  | d :: ds => within levels d :: itemsWithin levels ds

/-- The entries, each held to the number of levels. -/
def entriesWithin (levels : Nat) : List (String × Doc) → List (String × Doc)
  | [] => []
  | (k, d) :: ds => (k, within levels d) :: entriesWithin levels ds

end

/-- The deepest nesting of lists and objects that is read. -/
def maxLevels : Nat := 127

/-! ## 5. Texts -/

/-- The document of a JSON text, if the text is well formed. -/
def read? (text : String) : Option Doc :=
  let cs := text.toList
  match readValue (cs.length + 1) cs with
  | some (d, rest) => if (skipBlanks rest).isEmpty then some (within maxLevels d) else none
  | none => none

/-- The document of the text that is made of the given characters. -/
theorem read?_ofList (cs : List Char) : read? (String.ofList cs) =
    match readValue (cs.length + 1) cs with
    | some (d, rest) => if (skipBlanks rest).isEmpty then some (within maxLevels d) else none
    | none => none := by
  unfold read?
  rw [String.toList_ofList]

/-- The free value of a JSON text. -/
def value? (text : String) : Option Value := (read? text).bind Doc.value?

end Gatehouse.Json
