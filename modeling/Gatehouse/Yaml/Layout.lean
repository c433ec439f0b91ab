import Gatehouse.Yaml.Block
import Gatehouse.Yaml.Quoted
import Gatehouse.Yaml.Token

/-!
# The layout of YAML texts

What this file fixes:

* `Layout`: the state of the reading of tokens: the indentations of the open block collections, and
  for each open flow the place where a one-line key may have started. Only when its colon is seen
  is the key's own token put at that place, and the start of a block mapping with it;
* `Layout.step?`: the reading of one token, with the ends of the block collections that end before
  it;
* `tokens?`: the tokens of a text. A text without tokens cannot be read, for instance one with
  control characters, or with a tab where an indentation is due.
-/

namespace Gatehouse.Yaml

/-! ## 1. State -/

/-- A place where a key may have started. A required one must turn out to be a key. -/
structure KeyStart where
  required : Bool
  number : Nat
  mark : Mark
  deriving DecidableEq, Repr

/-- The state of the reading of tokens. The tokens read so far are in reverse order. -/
structure Layout where
  source : Source
  tokens : List Token
  count : Nat
  indent : Int
  indents : List Int
  keyAllowed : Bool
  keyStart : Option KeyStart
  outerKeyStarts : List (Option KeyStart)
  deriving Repr

namespace Layout

/-- The start of a text. -/
def start (cs : List Char) : Layout :=
  ⟨⟨cs, .start⟩, [], 0, -1, [], true, none, []⟩

/-- The reading is inside a flow collection. -/
def inFlow (l : Layout) : Bool := !l.outerKeyStarts.isEmpty

/-- The state with a further token. -/
def add (l : Layout) (t : Token) : Layout :=
  { l with tokens := t :: l.tokens, count := l.count + 1 }

/-- The state with a token put at the place of the token of the given number. -/
def insert (l : Layout) (number : Nat) (t : Token) : Layout :=
  let later := l.count - number
  { l with tokens := l.tokens.take later ++ t :: l.tokens.drop later, count := l.count + 1 }

/-- The state after `n` characters of the line. -/
def skip (l : Layout) (n : Nat) : Layout := { l with source := l.source.skip n }

/-- The column of the next character. -/
def column (l : Layout) : Int := l.source.mark.column

/-! ## 2. Indentation -/

/-- Ends the block collections that are indented further than a column. -/
def unrollFrom (column : Int) : Int → List Int → Layout → Layout
  | indent, [], l => { l with indent := indent, indents := [] }
  | indent, outer :: rest, l =>
      if column < indent then unrollFrom column outer rest (l.add .blockEnd)
      else { l with indent := indent, indents := outer :: rest }

/-- Ends the block collections that are indented further than a column; a flow has none. -/
def unroll (l : Layout) (column : Int) : Layout :=
  if l.inFlow then l else unrollFrom column l.indent l.indents l

/-- Starts a block collection at a column, if none is open that is indented as far; its token comes
    at the given number, or last. -/
def roll (l : Layout) (column : Int) (number : Option Nat) (t : Token) : Layout :=
  if !l.inFlow && l.indent < column then
    let l := match number with
      | some n => l.insert n t
      | none => l.add t
    { l with indent := column, indents := l.indent :: l.indents }
  else l

/-! ## 3. One-line keys -/

/-- The greatest distance in bytes between the start of a one-line key and its colon. -/
def keySpan : Nat := 1024

/-- A start of a key lies too far back, or in an earlier line. -/
def isStale (now : Mark) (k : KeyStart) : Bool :=
  k.mark.line < now.line || k.mark.index + keySpan < now.index

/-- Forgets a start of a key that lies too far back, unless it is required. -/
def freshen? (now : Mark) : Option KeyStart → Option (Option KeyStart)
  | none => some none
  | some k =>
      if isStale now k then (if k.required then none else some none) else some (some k)

/-- Forgets all starts of keys that lie too far back. -/
def dropStale? (l : Layout) : Option Layout :=
  match freshen? l.source.mark l.keyStart, l.outerKeyStarts.mapM (freshen? l.source.mark) with
  | some k, some outer => some { l with keyStart := k, outerKeyStarts := outer }
  | _, _ => none

/-- Forgets the start of a key in the innermost collection, unless it is required. -/
def dropKeyStart? (l : Layout) : Option Layout :=
  match l.keyStart with
  | some k => if k.required then none else some { l with keyStart := none }
  | none => some l

/-- Notes that a key may start here, if one may. -/
def noteKeyStart? (l : Layout) : Option Layout :=
  if l.keyAllowed then
    l.dropKeyStart?.map fun l =>
      { l with
        keyStart := some ⟨!l.inFlow && l.indent == l.column, l.count, l.source.mark⟩ }
  else some l

/-- Whether a key may start at the next token. -/
def allowKey (l : Layout) (allowed : Bool) : Layout := { l with keyAllowed := allowed }

/-! ## 4. Between tokens -/

/-- A blank that separates tokens; a tab does so only where no indentation is due. -/
def separates (l : Layout) (c : Char) : Bool :=
  c == ' ' || ((l.inFlow || !l.keyAllowed) && c == '\t')

/-- The source behind a byte order mark at the start of a line, which takes up the first column. -/
def skipOrderMark (s : Source) : Source :=
  if s.mark.column = 0 ∧ s.peek 0 = some '\ufeff' then s.skip 1 else s

/-- The state behind blanks, comments and line breaks; `fuel` bounds the number of lines. A line
    may start with a byte order mark. -/
def toNextToken : Nat → Layout → Layout
  | 0, l => l
  | fuel + 1, l =>
      let s := (skipOrderMark l.source).skipRun l.separates
      let s := if s.peek 0 = some '#' then s.skipLine else s
      match break? s.rest with
      | none => { l with source := s }
      | some _ =>
          toNextToken fuel
            { l with source := s.skipBreak, keyAllowed := l.keyAllowed || !l.inFlow }

/-! ## 5. Tokens -/

/-- The end of the text: all collections end. -/
def finish? (l : Layout) : Option Layout :=
  let line := if l.source.mark.column = 0 then l.source.mark else l.source.mark.nextLine 0
  ({ l with source := { l.source with mark := line } }.unroll (-1)).dropKeyStart?

/-- A directive, a line of its own. -/
def directive? (l : Layout) : Option Layout :=
  (l.unroll (-1)).dropKeyStart?.bind fun l =>
    (Yaml.directive? (l.source.skip 1)).bind fun (t, s) =>
      (lineRest? s).map fun s => ({ l with source := s }.add t).allowKey false

/-- A marker of the start or the end of a document. -/
def documentMarker? (l : Layout) (t : Token) : Option Layout :=
  (l.unroll (-1)).dropKeyStart?.map fun l => ((l.skip 3).add t).allowKey false

/-- An opening bracket. -/
def openFlow? (l : Layout) (t : Token) : Option Layout :=
  l.noteKeyStart?.map fun l =>
    (({ l with keyStart := none, outerKeyStarts := l.keyStart :: l.outerKeyStarts }.skip 1).add
      t).allowKey true

/-- A closing bracket. -/
def closeFlow? (l : Layout) (t : Token) : Option Layout :=
  l.dropKeyStart?.map fun l =>
    let l := match l.outerKeyStarts with
      | [] => l
      | k :: outer => { l with keyStart := k, outerKeyStarts := outer }
    ((l.skip 1).add t).allowKey false

/-- A comma of a flow. -/
def flowEntry? (l : Layout) : Option Layout :=
  l.dropKeyStart?.map fun l => ((l.skip 1).add .flowEntry).allowKey true

/-- The hyphen of a block sequence. -/
def blockEntry? (l : Layout) : Option Layout :=
  if !l.inFlow && !l.keyAllowed then none
  else (l.roll l.column none .blockSequenceStart).dropKeyStart?.map fun l =>
    ((l.skip 1).add .blockEntry).allowKey true

/-- The indicator of a key that may take several lines. -/
def key? (l : Layout) : Option Layout :=
  if !l.inFlow && !l.keyAllowed then none
  else (l.roll l.column none .blockMappingStart).dropKeyStart?.map fun l =>
    ((l.skip 1).add .key).allowKey (!l.inFlow)

/-- A colon behind a key of one line, or behind one that has its own indicator. -/
def value? (l : Layout) : Option Layout :=
  match l.keyStart with
  | some k =>
      let l := (l.insert k.number .key).roll k.mark.column (some k.number) .blockMappingStart
      some (({ l with keyStart := none }.skip 1).add .value |>.allowKey false)
  | none =>
      if !l.inFlow && !l.keyAllowed then none
      else
        let l := l.roll l.column none .blockMappingStart
        some (((l.skip 1).add .value).allowKey (!l.inFlow))

/-- The state after a token that ends before a source. -/
def pass (l : Layout) (t : Token) (s : Source) : Layout := { l.add t with source := s }

/-- An anchor, or its use. -/
def anchor? (l : Layout) (make : String → Token) : Option Layout :=
  l.noteKeyStart?.bind fun l =>
    (anchorName? (l.source.skip 1)).map fun (name, s) => (l.pass (make name) s).allowKey false

/-- A tag. -/
def tag? (l : Layout) : Option Layout :=
  l.noteKeyStart?.bind fun l =>
    (Yaml.tag? l.inFlow l.source).map fun (t, s) => (l.pass t s).allowKey false

/-- A block scalar. -/
def blockScalar? (l : Layout) (style : Style) : Option Layout :=
  l.dropKeyStart?.bind fun l =>
    (block? (style == .literal) l.indent (l.source.skip 1)).map fun (text, s) =>
      (l.pass (.scalar (String.ofList text) style) s).allowKey true

/-- A quoted scalar. -/
def quotedScalar? (l : Layout) (quote : Char) : Option Layout :=
  l.noteKeyStart?.bind fun l =>
    (quoted? quote (l.source.skip 1)).map fun (text, s) =>
      (l.pass (.scalar (String.ofList text) .quoted) s).allowKey false

/-- A plain scalar; if line breaks stand behind it, a key may follow. -/
def plainScalar? (l : Layout) : Option Layout :=
  l.noteKeyStart?.bind fun l =>
    (plain? l.inFlow (l.indent + 1) l.source).map fun (text, broken, s) =>
      (l.pass (.scalar (String.ofList text) .plain) s).allowKey broken

/-- The characters that start no plain scalar. -/
def indicators : List Char := "-?:,[]\x7b\x7d#&*!|>'\"%@\x60".toList

/-- A plain scalar may start here. -/
def plainStarts (l : Layout) (c : Char) : Bool :=
  if isBlank c || isBreak c then false
  else if c == '-' then !(l.source.peek 1).any isBlank
  else if c == '?' || c == ':' then !l.inFlow && !l.source.endsWordAt 1
  else !indicators.contains c

/-- The token that starts with the given character. -/
def token? (l : Layout) (c : Char) : Option Layout :=
  let wordEnds := l.source.endsWordAt 1
  if l.source.mark.column = 0 ∧ c = '%' then l.directive?
  else if l.source.mark.column = 0 ∧ l.source.startsWord ['-', '-', '-'] then
    l.documentMarker? .documentStart
  else if l.source.mark.column = 0 ∧ l.source.startsWord ['.', '.', '.'] then
    l.documentMarker? .documentEnd
  else if c = '[' then l.openFlow? .flowSequenceStart
  else if c = '{' then l.openFlow? .flowMappingStart
  else if c = ']' then l.closeFlow? .flowSequenceEnd
  else if c = '}' then l.closeFlow? .flowMappingEnd
  else if c = ',' then l.flowEntry?
  else if c = '-' ∧ wordEnds then l.blockEntry?
  else if c = '?' ∧ (l.inFlow ∨ wordEnds) then l.key?
  else if c = ':' ∧ (l.inFlow ∨ wordEnds) then l.value?
  else if c = '*' then l.anchor? .alias
  else if c = '&' then l.anchor? .anchor
  else if c = '!' then l.tag?
  else if c = '|' ∧ !l.inFlow then l.blockScalar? .literal
  else if c = '>' ∧ !l.inFlow then l.blockScalar? .folded
  else if c = '"' ∨ c = '\x27' then l.quotedScalar? c
  else if l.plainStarts c then l.plainScalar?
  else none

/-- Reads the next token. -/
def step? (l : Layout) : Option Layout :=
  (toNextToken (l.source.rest.length + 1) l).dropStale?.bind fun l =>
    match l.source.rest with
    | [] => l.finish?
    | c :: _ => (l.unroll l.column).token? c

/-- Reads all tokens; `fuel` bounds their number. -/
def steps? : Nat → Layout → Option Layout
  | 0, _ => none
  | fuel + 1, l =>
      l.step?.bind fun l => if l.source.rest.isEmpty then l.step? else steps? fuel l

end Layout

/-- The tokens of a text. -/
def tokens? (text : String) : Option (List Token) :=
  let cs := text.toList
  if cs.all isPermitted then
    ((Layout.start cs).steps? (cs.length + 1)).map fun l => l.tokens.reverse
  else none

end Gatehouse.Yaml
