import Gatehouse.Text

/-!
# YAML characters and positions

What this file fixes:

* `isPermitted`, `isBlank`, `isBreak`: the classes of characters that layout depends on;
* `Source`: the characters that are left, and where they stand;
* the moves of a source: over characters of one line (`skip`), over one line break (`break?`), and
  over a run of characters (`takeRun`).
-/

namespace Gatehouse.Yaml

/-! ## 1. Characters -/

/-- The characters that a text may have at all. -/
def isPermitted (c : Char) : Bool :=
  let n := c.toNat
  n == 9 || n == 10 || n == 13 || (0x20 ≤ n && n ≤ 0x7E) || n == 0x85
    || (0xA0 ≤ n && n ≤ 0xFFFD) || 0x10000 ≤ n

/-- A space or a tab. -/
def isBlank (c : Char) : Bool := c == ' ' || c == '\t'

/-- A character that breaks a line. -/
def isBreak (c : Char) : Bool :=
  c == '\r' || c == '\n' || c == '\u0085' || c == '\u2028' || c == '\u2029'

/-- A character of names: an ASCII letter or digit, a hyphen or an underscore. -/
def isNameChar (c : Char) : Bool := c.isAlphanum || c == '-' || c == '_'

/-! ## 2. Positions -/

/-- A position: the number of bytes before it, its line, and the number of characters before it in
    the line. -/
structure Mark where
  index : Nat
  line : Nat
  column : Nat
  deriving DecidableEq, Repr

/-- The characters that are left, and the position of the first of them. -/
structure Source where
  rest : List Char
  mark : Mark
  deriving DecidableEq, Repr

namespace Mark

/-- The start of a text. -/
def start : Mark := ⟨0, 0, 0⟩

/-- The position behind a character of the line. -/
def past (m : Mark) (c : Char) : Mark := ⟨m.index + Text.byteWidth c, m.line, m.column + 1⟩

/-- The position `n` characters further in the line, each of them one byte long. -/
def forward (m : Mark) (n : Nat) : Mark := ⟨m.index + n, m.line, m.column + n⟩

/-- The start of the next line, behind a break of `n` bytes. -/
def nextLine (m : Mark) (n : Nat) : Mark := ⟨m.index + n, m.line + 1, 0⟩

/-- The start of the next line, behind a character that breaks the line. -/
def pastBreak (m : Mark) (c : Char) : Mark := m.nextLine (Text.byteWidth c)

end Mark

/-! ## 3. Line breaks -/

/-- The text that a single breaking character stands for. All but two kinds stand for the same. -/
def breakText (c : Char) : List Char :=
  if c == '\u2028' || c == '\u2029' then [c] else ['\n']

/-- A line break at the start of some characters: the text it stands for, what follows, and the
    number of its bytes. -/
def break? : List Char → Option (List Char × List Char × Nat)
  | '\r' :: '\n' :: rest => some (['\n'], rest, 2)
  | c :: rest => if isBreak c then some (breakText c, rest, Text.byteWidth c) else none
  | [] => none

namespace Source

/-- The character `n` places further, if there is one. -/
def peek (s : Source) (n : Nat) : Option Char := s.rest[n]?

/-- The source after `n` characters of a line. -/
def skip (s : Source) (n : Nat) : Source :=
  ⟨s.rest.drop n, (s.rest.take n).foldl Mark.past s.mark⟩

/-- The run of characters with a property, and the source after it. -/
def takeRun (s : Source) (p : Char → Bool) : List Char × Source :=
  let run := s.rest.takeWhile p
  (run, ⟨s.rest.drop run.length, run.foldl Mark.past s.mark⟩)

/-- The source after a run of characters with a property. -/
def skipRun (s : Source) (p : Char → Bool) : Source := (s.takeRun p).2

/-- There is no character `n` places further, or one that ends a word. -/
def endsWordAt (s : Source) (n : Nat) : Bool :=
  match s.peek n with
  | none => true
  | some c => isBlank c || isBreak c

/-- There is no further character in the line. -/
def atLineEnd (s : Source) : Bool :=
  match s.rest with
  | [] => true
  | c :: _ => isBreak c

/-- The source after the line break that comes next, if one does. -/
def skipBreak (s : Source) : Source :=
  match break? s.rest with
  | some (_, rest, n) => ⟨rest, s.mark.nextLine n⟩
  | none => s

/-- The source at the end of the line. -/
def skipLine (s : Source) : Source := s.skipRun fun c => !isBreak c

/-- Some characters stand here as a word of their own. -/
def startsWord (s : Source) (word : List Char) : Bool :=
  s.rest.take word.length == word && s.endsWordAt word.length

/-- A marker of the start or the end of a document stands here, at the start of a line. -/
def atDocumentMarker (s : Source) : Bool :=
  s.mark.column == 0 && (s.startsWord ['-', '-', '-'] || s.startsWord ['.', '.', '.'])

end Source

end Gatehouse.Yaml
