/-!
# Texts as lists of characters

What this file fixes, for the readers and printers of the other modules:

* `bytes`: the UTF-8 bytes of a text, and `ofBytes?` the text of such bytes; `byteWidth`,
  `byteLength`, `takeBytes`: a text measured and cut in these bytes, never inside a character;
  `elide` is the cut that leaves a mark behind;
* `isBlank`, `trim`: the characters with the Unicode property White_Space, and their removal at
  both ends;
* `sameIgnoringCase`: equality of two names up to the case of ASCII letters;
* `splitOn`, `joinWith`: the fields of a text between separators.
-/

namespace Gatehouse.Text

/-! ## 1. Bytes -/

/-- The number of UTF-8 bytes of one character. -/
def byteWidth (c : Char) : Nat :=
  if c.toNat < 0x80 then 1 else if c.toNat < 0x800 then 2 else if c.toNat < 0x10000 then 3 else 4

/-- The number of UTF-8 bytes of a text. -/
def byteLength : List Char → Nat
  | [] => 0
  | c :: cs => byteWidth c + byteLength cs

/-- The UTF-8 bytes of a text. -/
def bytes (cs : List Char) : List UInt8 := cs.flatMap String.utf8EncodeChar

/-- The text of UTF-8 bytes; none if they are those of no text. -/
def ofBytes? (bs : List UInt8) : Option String := String.fromUTF8? bs.toByteArray

/-- The longest run of whole characters at the start of a text that fits into `budget` bytes. -/
def takeBytes : Nat → List Char → List Char
  | _, [] => []
  | budget, c :: cs =>
      if byteWidth c ≤ budget then c :: takeBytes (budget - byteWidth c) cs else []

/-- A text of at most `limit` bytes as it stands, a longer one cut there and marked by `...`. -/
def elide (limit : Nat) (cs : List Char) : List Char :=
  if byteLength cs ≤ limit then cs else takeBytes limit cs ++ ['.', '.', '.']

theorem bytes_append (xs ys : List Char) : bytes (xs ++ ys) = bytes xs ++ bytes ys :=
  List.flatMap_append

theorem length_utf8EncodeChar (c : Char) : (String.utf8EncodeChar c).length = byteWidth c := by
  have hval : c.toNat = c.val.toNat := rfl
  unfold String.utf8EncodeChar byteWidth
  grind

theorem length_bytes (cs : List Char) : (bytes cs).length = byteLength cs := by
  induction cs with
  | nil => rfl
  | cons c cs ih =>
    rw [bytes, List.flatMap_cons, List.length_append, length_utf8EncodeChar, byteLength, ← ih]
    rfl

theorem byteLength_takeBytes_le (budget : Nat) (cs : List Char) :
    byteLength (takeBytes budget cs) ≤ budget := by
  induction cs generalizing budget with
  | nil => simp [takeBytes, byteLength]
  | cons c cs ih =>
    simp only [takeBytes]
    split
    · have := ih (budget - byteWidth c)
      simp only [byteLength]
      omega
    · simp [byteLength]

/-- The cut text is a beginning of the whole. -/
theorem takeBytes_append_rest (budget : Nat) (cs : List Char) :
    ∃ rest, takeBytes budget cs ++ rest = cs := by
  induction cs generalizing budget with
  | nil => exact ⟨[], rfl⟩
  | cons c cs ih =>
    simp only [takeBytes]
    split
    · obtain ⟨rest, h⟩ := ih (budget - byteWidth c)
      exact ⟨rest, by simp [h]⟩
    · exact ⟨c :: cs, rfl⟩

/-! ## 2. Blanks -/

/-- The characters with the property White_Space. -/
def isBlank (c : Char) : Bool :=
  let n := c.toNat
  (9 ≤ n && n ≤ 13) || n == 0x20 || n == 0x85 || n == 0xA0 || n == 0x1680
    || (0x2000 ≤ n && n ≤ 0x200A) || n == 0x2028 || n == 0x2029 || n == 0x202F || n == 0x205F
    || n == 0x3000

/-- A text without the blanks at its start. -/
def trimStart (cs : List Char) : List Char := cs.dropWhile isBlank

/-- A text without the blanks at both ends. -/
def trim (cs : List Char) : List Char := (trimStart (trimStart cs).reverse).reverse

/-! ## 3. Names and fields -/

/-- Two names are the same up to the case of ASCII letters. -/
def sameIgnoringCase (a b : String) : Bool :=
  a.toList.map Char.toLower == b.toList.map Char.toLower

/-- The fields of a text between the occurrences of `sep`; a text without it is one field. -/
def splitOn (sep : Char) : List Char → List (List Char)
  | [] => [[]]
  | c :: cs =>
      if c = sep then [] :: splitOn sep cs
      else match splitOn sep cs with
        | [] => [[c]]
        | f :: fs => (c :: f) :: fs

/-- The texts one after the other, with `sep` between two of them. -/
def joinWith (sep : String) : List String → String
  | [] => ""
  | [s] => s
  | s :: rest => s ++ sep ++ joinWith sep rest

/-- The value of a decimal digit. -/
def digitValue (c : Char) : Nat := c.toNat - 48

/-- The number that a run of decimal digits writes. -/
def decimalValue (ds : List Char) : Nat := ds.foldl (fun n c => n * 10 + digitValue c) 0

/-- There are hexadecimal digits, so that numbers can be taken modulo their count. -/
instance hexDigitCount : @NeZero Nat Zero.ofOfNat0 16 := ⟨Nat.succ_ne_zero 15⟩

/-- The value of a hexadecimal digit in either case. -/
def hexValue? (c : Char) : Option (Fin 16) :=
  let n := c.toNat
  if 48 ≤ n ∧ n ≤ 57 then some (Fin.ofNat 16 (n - 48))
  else if 97 ≤ n ∧ n ≤ 102 then some (Fin.ofNat 16 (n - 87))
  else if 65 ≤ n ∧ n ≤ 70 then some (Fin.ofNat 16 (n - 55))
  else none

/-- The lower-case hexadecimal digit of a value. -/
def hexDigit (d : Fin 16) : Char :=
  if d.val < 10 then Char.ofNat (48 + d.val) else Char.ofNat (87 + d.val)

theorem hexValue_hexDigit (d : Fin 16) : hexValue? (hexDigit d) = some d := by
  revert d; decide

end Gatehouse.Text
