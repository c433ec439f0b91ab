import Gatehouse.Doc.Scalar
import Gatehouse.Yaml.Source

/-!
# YAML tokens

What this file fixes:

* `Token`: what the layout of a text is made of. The start and the end of indented collections and
  the keys of one-line entries are tokens of their own;
* `alias?`, `tag?`, `directive?`: the tokens with names: anchors and their uses, tags, and the
  directives in front of a document.
-/

namespace Gatehouse.Yaml

/-- A token. -/
inductive Token where
  | version (major minor : Nat)
  | tagHandle (handle : String) (replacement : Tag)
  | documentStart
  | documentEnd
  | blockSequenceStart
  | blockMappingStart
  | blockEnd
  | flowSequenceStart
  | flowSequenceEnd
  | flowMappingStart
  | flowMappingEnd
  | blockEntry
  | flowEntry
  | key
  | value
  | alias (name : String)
  | anchor (name : String)
  | tag (handle : String) (suffix : Tag)
  | scalar (text : String) (style : Style)
  deriving DecidableEq, Repr

/-! ## 1. Anchors -/

/-- A character that may stand right behind the name of an anchor. -/
def endsAnchor (c : Char) : Bool :=
  isBlank c || isBreak c || c == '?' || c == ':' || c == ',' || c == ']' || c == '}' || c == '%'
    || c == '@' || c == '\x60'

/-- The name behind the indicator of an anchor or its use. -/
def anchorName? (s : Source) : Option (String × Source) :=
  let name := s.takeRun isNameChar
  if name.1.isEmpty || !(match name.2.rest with
      | [] => true
      | c :: _ => endsAnchor c) then none
  else some (String.ofList name.1, name.2)

/-! ## 2. Tags -/

/-- A character of a tag, apart from escapes; in brackets, three more are allowed. -/
def isTagChar (bracketed : Bool) (c : Char) : Bool :=
  isNameChar c || ";/?:@&=+$.!~*'()".toList.contains c
    || (bracketed && (c == ',' || c == '[' || c == ']'))

/-- The value of an escaped byte. -/
def byte? (a b : Char) : Option Nat :=
  match Text.hexValue? a, Text.hexValue? b with
  | some x, some y => some (x.val * 16 + y.val)
  | _, _ => none

/-- The number of bytes of a character whose first byte is given, and the bits of that byte. -/
def leadByte? (n : Nat) : Option (Nat × Nat) :=
  if n < 0x80 then some (1, n)
  else if 0xC0 ≤ n ∧ n < 0xE0 then some (2, n % 0x20)
  else if 0xE0 ≤ n ∧ n < 0xF0 then some (3, n % 0x10)
  else if 0xF0 ≤ n ∧ n < 0xF8 then some (4, n % 0x08)
  else none

/-- The code that escaped further bytes complete, after the bits read so far. -/
def laterBytes? : Nat → Nat → List Char → Option Nat
  | 0, code, _ => some code
  | n + 1, code, '%' :: a :: b :: rest =>
      (byte? a b).bind fun v =>
        if 0x80 ≤ v ∧ v < 0xC0 then laterBytes? n (code * 64 + v % 64) rest else none
  | _ + 1, _, _ => none

/-- The character of a code that is written in some number of bytes. There is none if the code is
    too large, is kept for other uses, or could be written in fewer bytes. -/
def charOf? (width code : Nat) : Option Char :=
  let c := Char.ofNat code
  if c.toNat = code ∧ Text.byteWidth c = width then some c else none

/-- What escapes stand for, and the number of their characters. Their bytes have the form of one
    character; if there is no such character, they stand for nothing. -/
def tagEscape? : List Char → Option (Option Char × Nat)
  | '%' :: a :: b :: rest =>
      ((byte? a b).bind leadByte?).bind fun (width, bits) =>
        (laterBytes? (width - 1) bits rest).map fun code => (charOf? width code, 3 * width)
  | _ => none

/-- The characters of a tag, and the source after them; `fuel` bounds their number. -/
def tagChars? (bracketed : Bool) : Nat → Source → Option (List (Option Char) × Source)
  | 0, s => some ([], s)
  | fuel + 1, s =>
      match s.rest with
      | [] => some ([], s)
      | c :: _ =>
          if c = '%' then
            (tagEscape? s.rest).bind fun (d, n) =>
              (tagChars? bracketed fuel (s.skip n)).map fun p => (d :: p.1, p.2)
          else if isTagChar bracketed c then
            (tagChars? bracketed fuel (s.skip 1)).map fun p => (some c :: p.1, p.2)
          else some ([], s)

/-- The tag of some characters. It ends before the first NUL. -/
def tagOf (cs : List (Option Char)) : Tag :=
  let kept := cs.takeWhile (· != some '\x00')
  ⟨String.ofList (kept.map (·.getD '\ufffd')), kept.any Option.isNone⟩

/-- The text of a tag; it has characters unless something stands in front of it. -/
def tagText? (bracketed : Bool) (lead : List Char) (s : Source) : Option (Tag × Source) :=
  (tagChars? bracketed s.rest.length s).bind fun p =>
    if lead.isEmpty && p.1.isEmpty then none
    else some (tagOf ((lead.drop 1).map some ++ p.1), p.2)

/-- A handle: an exclamation mark, a name, and a second mark if there is one. -/
def tagHandle (s : Source) : List Char × Source :=
  let name := (s.skip 1).takeRun isNameChar
  if name.2.peek 0 = some '!' then ('!' :: name.1 ++ ['!'], name.2.skip 1)
  else ('!' :: name.1, name.2)

/-- A handle ends with a second exclamation mark. -/
def isClosed (handle : List Char) : Bool := 1 < handle.length && handle.getLast? == some '!'

/-- The handle and the suffix of the tag that starts here. An exclamation mark by itself is all of
    a tag. -/
def tagParts? (s : Source) : Option (List Char × Tag × Source) :=
  if s.peek 1 = some '<' then
    (tagText? true [] (s.skip 2)).bind fun (text, after) =>
      if after.peek 0 = some '>' then some ([], text, after.skip 1) else none
  else
    let handle := tagHandle s
    if isClosed handle.1 then
      (tagText? false [] handle.2).map fun (text, after) => (handle.1, text, after)
    else
      (tagText? false handle.1 handle.2).map fun (text, after) =>
        if text.text.isEmpty then ([], ⟨"!", false⟩, after) else (['!'], text, after)

/-- The tag that starts here. -/
def tag? (flow : Bool) (s : Source) : Option (Token × Source) :=
  (tagParts? s).bind fun (handle, suffix, after) =>
    if after.endsWordAt 0 || (flow && after.peek 0 == some ',') then
      some (.tag (String.ofList handle) suffix, after)
    else none

/-! ## 3. Directives -/

/-- A number of at most nine digits. -/
def versionNumber? (s : Source) : Option (Nat × Source) :=
  let ds := s.takeRun Char.isDigit
  if ds.1.isEmpty || 9 < ds.1.length then none else some (Text.decimalValue ds.1, ds.2)

/-- The version in a directive. -/
def versionDirective? (s : Source) : Option (Token × Source) :=
  (versionNumber? (s.skipRun isBlank)).bind fun (major, s) =>
    if s.peek 0 = some '.' then
      (versionNumber? (s.skip 1)).map fun (minor, s) => (.version major minor, s)
    else none

/-- The handle in a directive, and what it stands for. -/
def handleDirective? (s : Source) : Option (Token × Source) :=
  let s := s.skipRun isBlank
  if s.peek 0 ≠ some '!' then none
  else
    let handle := tagHandle s
    if handle.1 ≠ ['!'] ∧ !isClosed handle.1 then none
    else if !handle.2.rest.head?.any isBlank then none
    else (tagText? true [] (handle.2.skipRun isBlank)).bind fun (text, s) =>
      if s.endsWordAt 0 then
        some (.tagHandle (String.ofList handle.1) text, s)
      else none

/-- The directive behind its indicator. -/
def directive? (s : Source) : Option (Token × Source) :=
  let name := s.takeRun isNameChar
  if name.1.isEmpty || !name.2.endsWordAt 0 then none
  else if name.1 = "YAML".toList then versionDirective? name.2
  else if name.1 = "TAG".toList then handleDirective? name.2
  else none

end Gatehouse.Yaml
