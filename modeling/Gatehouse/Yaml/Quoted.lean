import Gatehouse.Yaml.Plain

/-!
# Quoted scalars

What this file fixes:

* `singleFrom?`: the text between single quotes, where a quote is written twice;
* `doubleFrom?`: the text between double quotes, where a backslash starts an escape; in front of a
  line break it joins the lines without a space;
* in both, blanks and line breaks are folded as between the words of a plain scalar, and neither may
  contain the marker of a document at the start of a line.
-/

namespace Gatehouse.Yaml

/-! ## 1. Single quotes -/

/-- Reads on up to the closing single quote, after the characters `done`, the last one first, and a
    gap. -/
def singleFrom? (done : List Char) (gap : Gap) (mark : Mark) :
    List Char → Option (List Char × Source)
  | [] => none
  | '\r' :: '\n' :: rest => singleFrom? done (gap.addBreak ['\n']) (mark.nextLine 2) rest
  | '\x27' :: '\x27' :: rest => singleFrom? ('\x27' :: gap.before done) .none (mark.forward 2) rest
  | c :: rest =>
      if isBlank c then singleFrom? done (gap.addBlank c) (mark.past c) rest
      else if isBreak c then
        singleFrom? done (gap.addBreak (breakText c)) (mark.pastBreak c) rest
      else if Source.atDocumentMarker ⟨c :: rest, mark⟩ then none
      else if c = '\x27' then some ((gap.before done).reverse, ⟨rest, mark.forward 1⟩)
      else singleFrom? (c :: gap.before done) .none (mark.past c) rest

/-! ## 2. Double quotes -/

/-- The character that a one-letter escape stands for. -/
def escapeOf? (c : Char) : Option Char :=
  if c = '0' then some (Char.ofNat 0)
  else if c = 'a' then some (Char.ofNat 7)
  else if c = 'b' then some (Char.ofNat 8)
  else if c = 't' ∨ c = '\t' then some '\t'
  else if c = 'n' then some '\n'
  else if c = 'v' then some (Char.ofNat 11)
  else if c = 'f' then some (Char.ofNat 12)
  else if c = 'r' then some '\r'
  else if c = 'e' then some (Char.ofNat 27)
  else if c = ' ' ∨ c = '"' ∨ c = '/' ∨ c = '\\' then some c
  else if c = 'N' then some '\u0085'
  else if c = '_' then some '\u00a0'
  else if c = 'L' then some '\u2028'
  else if c = 'P' then some '\u2029'
  else none

/-- The character of a code in hexadecimal digits. -/
def coded? (ds : List Char) : Option Char :=
  (ds.mapM Text.hexValue?).bind fun vs =>
    let n := vs.foldl (fun n d => n * 16 + d.val) 0
    if (0xD800 ≤ n ∧ n ≤ 0xDFFF) ∨ 0x10FFFF < n then none else some (Char.ofNat n)

/-- Reads on up to the closing double quote, after the characters `done`, the last one first, and
    a gap. -/
def doubleFrom? (done : List Char) (gap : Gap) (mark : Mark) :
    List Char → Option (List Char × Source)
  | [] => none
  | '\r' :: '\n' :: rest => doubleFrom? done (gap.addBreak ['\n']) (mark.nextLine 2) rest
  | '\\' :: '\r' :: '\n' :: rest =>
      doubleFrom? (gap.before done) (.breaks [] []) (mark.nextLine 3) rest
  | '\\' :: 'x' :: a :: b :: rest =>
      match coded? [a, b] with
      | some c => doubleFrom? (c :: gap.before done) .none (mark.forward 4) rest
      | none => none
  | '\\' :: 'u' :: a :: b :: c :: d :: rest =>
      match coded? [a, b, c, d] with
      | some c => doubleFrom? (c :: gap.before done) .none (mark.forward 6) rest
      | none => none
  | '\\' :: 'U' :: a :: b :: c :: d :: e :: f :: g :: h :: rest =>
      match coded? [a, b, c, d, e, f, g, h] with
      | some c => doubleFrom? (c :: gap.before done) .none (mark.forward 10) rest
      | none => none
  | '\\' :: e :: rest =>
      if isBreak e then
        doubleFrom? (gap.before done) (.breaks [] []) (mark.nextLine (Text.byteWidth e + 1)) rest
      else match escapeOf? e with
        | some c => doubleFrom? (c :: gap.before done) .none (mark.forward 2) rest
        | none => none
  | c :: rest =>
      if isBlank c then doubleFrom? done (gap.addBlank c) (mark.past c) rest
      else if isBreak c then
        doubleFrom? done (gap.addBreak (breakText c)) (mark.pastBreak c) rest
      else if Source.atDocumentMarker ⟨c :: rest, mark⟩ then none
      else if c = '"' then some ((gap.before done).reverse, ⟨rest, mark.forward 1⟩)
      else doubleFrom? (c :: gap.before done) .none (mark.past c) rest

/-- The quoted scalar behind the opening quote. -/
def quoted? (quote : Char) (s : Source) : Option (List Char × Source) :=
  if quote = '"' then doubleFrom? [] .none s.mark s.rest else singleFrom? [] .none s.mark s.rest

end Gatehouse.Yaml
