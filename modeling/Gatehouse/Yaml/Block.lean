import Gatehouse.Yaml.Source

/-!
# Block scalars

What this file fixes:

* `BlockHeader`: what stands behind the indicator of a block scalar: what becomes of the line
  breaks at its end, and its indentation, if that is given;
* `blockGap?`: the indentation and the empty lines between two lines of text. If the indentation is
  not given, the most indented of the empty lines and the first line of text fix it;
* `block?`: the text of a block scalar, its lines kept as they are or folded. Lines that start with
  a blank are never folded.
-/

namespace Gatehouse.Yaml

/-! ## 1. Headers -/

/-- What becomes of the line breaks at the end. -/
inductive Chomping where
  | strip
  | clip
  | keep
  deriving DecidableEq, Repr

/-- The header of a block scalar. -/
structure BlockHeader where
  chomping : Chomping
  increment : Nat
  deriving DecidableEq, Repr

/-- The chomping that a character stands for. -/
def chomping? (c : Char) : Option Chomping :=
  if c = '+' then some .keep else if c = '-' then some .strip else none

/-- The indentation that a character stands for; none may be zero. -/
def increment? (c : Char) : Option Nat :=
  if c.isDigit && c != '0' then some (Text.digitValue c) else none

/-- The header, its two parts in either order, and the number of its characters. -/
def blockHeader? (cs : List Char) : Option (BlockHeader × Nat) :=
  match cs with
  | a :: rest =>
      match chomping? a with
      | some ch =>
          match rest with
          | b :: _ =>
              if b.isDigit then (increment? b).map fun n => (⟨ch, n⟩, 2) else some (⟨ch, 0⟩, 1)
          | [] => some (⟨ch, 0⟩, 1)
      | none =>
          if a.isDigit then
            (increment? a).map fun n =>
              match rest.head?.bind chomping? with
              | some ch => (⟨ch, n⟩, 2)
              | none => (⟨.clip, n⟩, 1)
          else some (⟨.clip, 0⟩, 0)
  | [] => some (⟨.clip, 0⟩, 0)

/-- The source behind blanks, a comment and a line break, if nothing else stands in the line. -/
def lineRest? (s : Source) : Option Source :=
  let s := s.skipRun isBlank
  let s := if s.peek 0 = some '#' then s.skipLine else s
  if s.atLineEnd then some s.skipBreak else none

/-! ## 2. Gaps between lines -/

/-- What stands between two lines: the indentation of the next one, the breaks of empty lines, and
    the source after them. -/
structure BlockGap where
  indent : Nat
  breaks : List Char
  after : Source
  deriving DecidableEq, Repr

/-- Reads on in a gap, where `widest` is the greatest indentation so far. An `indent` of zero is not
    yet fixed; it will be at least `least`. -/
def blockGapFrom? (least indent widest : Nat) (breaks : List Char) (mark : Mark) :
    List Char → Option BlockGap
  | '\r' :: '\n' :: rest =>
      blockGapFrom? least indent (max widest mark.column) (breaks ++ ['\n']) (mark.nextLine 2) rest
  | c :: rest =>
      let isOpen := indent = 0 ∨ mark.column < indent
      if c = ' ' ∧ isOpen then blockGapFrom? least indent widest breaks (mark.past c) rest
      else if c = '\t' ∧ isOpen then none
      else if isBreak c then
        blockGapFrom? least indent (max widest mark.column) (breaks ++ breakText c)
          (mark.pastBreak c) rest
      else
        let fixed := if indent = 0 then max (max widest mark.column) least else indent
        some ⟨fixed, breaks, ⟨c :: rest, mark⟩⟩
  | [] =>
      let fixed := if indent = 0 then max (max widest mark.column) least else indent
      some ⟨fixed, breaks, ⟨[], mark⟩⟩

/-- The gap that starts here. -/
def blockGap? (least indent : Nat) (s : Source) : Option BlockGap :=
  blockGapFrom? least indent 0 [] s.mark s.rest

/-! ## 3. Lines -/

/-- A line of text starts with a blank. -/
def startsBlank (s : Source) : Bool := s.rest.head?.any isBlank

/-- Reads on in a block scalar whose text so far is `done`, the last piece first: the break behind
    its last line, whether that line started with a blank, and the gap that follows. The result is
    the text without the breaks at its end, the last break, those of the empty lines after it, and
    the source. -/
def blockLines? (literal : Bool) (least : Nat) :
    Nat → List (List Char) → List Char → Bool → BlockGap →
      Option (List (List Char) × List Char × List Char × Source)
  | 0, _, _, _, _ => none
  | fuel + 1, done, lastBreak, wasBlank, gap =>
      if gap.after.mark.column = gap.indent ∧ !gap.after.rest.isEmpty then
        let isBlankLine := startsBlank gap.after
        let lead :=
          if !literal && lastBreak = ['\n'] && !wasBlank && !isBlankLine then
            (if gap.breaks.isEmpty then [' '] else [])
          else lastBreak
        let line := gap.after.takeRun fun c => !isBreak c
        let newBreak := match break? line.2.rest with
          | some (text, _, _) => text
          | none => []
        (blockGap? least gap.indent line.2.skipBreak).bind fun next =>
          blockLines? literal least fuel (line.1 :: gap.breaks :: lead :: done) newBreak
            isBlankLine next
      else some (done, lastBreak, gap.breaks, gap.after)

/-- The breaks that stay at the end. -/
def keptBreaks (c : Chomping) (last more : List Char) : List Char :=
  match c with
  | .strip => []
  | .clip => last
  | .keep => last ++ more

/-- The block scalar behind its indicator, inside an indentation of `outer`. -/
def block? (literal : Bool) (outer : Int) (s : Source) : Option (List Char × Source) :=
  (blockHeader? s.rest).bind fun (header, n) =>
    (lineRest? (s.skip n)).bind fun s =>
      let indent := if header.increment = 0 then 0 else (max outer 0).toNat + header.increment
      let least := (max (outer + 1) 1).toNat
      (blockGap? least indent s).bind fun gap =>
        (blockLines? literal least (s.rest.length + 1) [] [] false gap).map
          fun (done, last, more, after) =>
            (done.reverse.flatten ++ keptBreaks header.chomping last more, after)

end Gatehouse.Yaml
