import Gatehouse.Yaml.Source

/-!
# Words, gaps and plain scalars

What this file fixes:

* `Gap`: what stands between two words of a scalar: nothing, blanks, or line breaks. Blanks around
  line breaks are lost, a single break becomes a space, and of several breaks the first is lost;
* `plain?`: the text of a plain scalar. It ends before a colon that ends a word, before a comment,
  before a line that is not indented enough, and in a flow also before brackets and commas.
-/

namespace Gatehouse.Yaml

/-! ## 1. Gaps -/

/-- What stands between two words. -/
inductive Gap where
  | blanks (run : List Char)
  | breaks (first : List Char) (more : List Char)
  deriving DecidableEq, Repr

namespace Gap

/-- No gap. -/
def none : Gap := .blanks []

/-- The gap has a line break. -/
def isBroken : Gap → Bool
  | .blanks _ => false
  | .breaks _ _ => true

/-- The gap with a further blank. -/
def addBlank (g : Gap) (c : Char) : Gap :=
  match g with
  | .blanks run => .blanks (run ++ [c])
  | .breaks first more => .breaks first more

/-- The gap with a further line break. -/
def addBreak (g : Gap) (b : List Char) : Gap :=
  match g with
  | .blanks _ => .breaks b []
  | .breaks first more => .breaks first (more ++ b)

/-- The text that a gap leaves between the words. -/
def text : Gap → List Char
  | .blanks run => run
  | .breaks first more =>
      if first = ['\n'] then (if more.isEmpty then [' '] else more) else first ++ more

/-- The text of a gap behind the characters `done`, the last one first. -/
def before (g : Gap) (done : List Char) : List Char := g.text.reverse ++ done

end Gap

/-! ## 2. Plain scalars -/

/-- The brackets and the comma, which end words in a flow. -/
def isFlowMark (c : Char) : Bool :=
  c == ',' || c == '[' || c == ']' || c == '{' || c == '}'

/-- A colon may not stand in a flow right before these. -/
def clashesWithColon (c : Char) : Bool := isFlowMark c || c == '?'

/-- What can be said of a character of a word: it belongs to it, ends it, or cannot stand there. -/
inductive WordStep where
  | continues
  | ends
  | clashes
  deriving DecidableEq, Repr

/-- What can be said of the first of some characters in a word. -/
def wordStep (flow : Bool) (s : Source) : WordStep :=
  match s.rest with
  | [] => .ends
  | ':' :: rest =>
      if flow && rest.head?.any clashesWithColon then .clashes
      else if s.endsWordAt 1 then .ends
      else .continues
  | c :: _ => if flow && isFlowMark c then .ends else .continues

/-- Reads on in a plain scalar, after the characters `done`, the last one first, and a gap. The
    result is the text, whether line breaks stand behind it, and the source after these. Outside
    of flows, lines must be indented by `indent`. -/
def plainFrom? (flow : Bool) (indent : Int) (done : List Char) (gap : Gap) (mark : Mark) :
    List Char → Option (List Char × Bool × Source)
  | [] => some (done.reverse, gap.isBroken, ⟨[], mark⟩)
  | '\r' :: '\n' :: rest =>
      plainFrom? flow indent done (gap.addBreak ['\n']) (mark.nextLine 2) rest
  | c :: rest =>
      let here : Source := ⟨c :: rest, mark⟩
      if isBlank c then
        if gap.isBroken && c == '\t' && mark.column < indent then Option.none
        else plainFrom? flow indent done (gap.addBlank c) (mark.past c) rest
      else if isBreak c then
        plainFrom? flow indent done (gap.addBreak (breakText c)) (mark.pastBreak c) rest
      else if gap != .none
          && ((!flow && mark.column < indent) || here.atDocumentMarker || c == '#') then
        some (done.reverse, gap.isBroken, here)
      else match wordStep flow here with
        | .clashes => Option.none
        | .ends => some (done.reverse, gap.isBroken, here)
        | .continues => plainFrom? flow indent (c :: gap.before done) .none (mark.past c) rest

/-- The plain scalar that starts here. -/
def plain? (flow : Bool) (indent : Int) (s : Source) : Option (List Char × Bool × Source) :=
  plainFrom? flow indent [] .none s.mark s.rest

end Gatehouse.Yaml
