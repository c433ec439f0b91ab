import Gatehouse.Text

/-!
# Attribute paths

What this file fixes:

* `Namespace`: the six attribute maps a path can read from;
* `Path`: a path as it is written, `namespace.key[*].key`, kept unchanged;
* `Cursor` and `Cursor.next`: the walk over the segments after the namespace, one at a time. What
  follows a segment is looked at before the segment is handed out;
* `Path.items`: all that the walk hands out, at most one error and that at the end;
* `Path.check`: the namespace of a well-formed path, or what is wrong with it.
-/

namespace Gatehouse

/-! ## 1. Namespaces -/

/-- The attribute map that a path reads from. -/
inductive Namespace where
  | subject
  | resource
  | path
  | body
  | query
  | header
  deriving DecidableEq, Repr

namespace Namespace

/-- Every namespace, in the order of messages. -/
def all : List Namespace := [.subject, .resource, .path, .body, .query, .header]

/-- The name a path starts with. -/
def name : Namespace → String
  | .subject => "subject"
  | .resource => "resource"
  | .path => "path"
  | .body => "body"
  | .query => "query"
  | .header => "header"

/-- The namespace of a name. -/
def ofName? (s : String) : Option Namespace := all.find? fun n => n.name == s

end Namespace

/-! ## 2. Segments and errors -/

/-- One step of a path. -/
inductive Segment where
  | key (name : String)
  | wildcard
  deriving DecidableEq, Repr

/-- What is wrong with a path. -/
inductive PathError where
  | empty
  | unknownNamespace
  | emptySegment
  | unclosedBracket
  | unsupportedSelector (selector : String)
  | unexpectedCharacter (c : Char)
  | leadingWildcard
  deriving DecidableEq, Repr

/-- The wording of a path error. -/
def PathError.message : PathError → String
  | .empty => "path is empty"
  | .unknownNamespace =>
      "must start with one of 'subject.', 'resource.', 'path.', 'body.', 'query.' or 'header.'"
  | .emptySegment => "path contains an empty segment"
  | .unclosedBracket => "unclosed '[' in path"
  | .unsupportedSelector s => "unsupported selector '[" ++ s ++ "]' (only '[*]' is allowed)"
  | .unexpectedCharacter c => "unexpected character '" ++ String.singleton c ++ "' after ']'"
  | .leadingWildcard => "path must name an attribute before '[*]'"

/-! ## 3. The walk -/

/-- A place in the walk over the segments: a mistake still to be reported, the characters that are
    left together with the fact whether a segment is due, or the end. -/
inductive Cursor where
  | broken (e : PathError)
  | reading (rest : List Char) (due : Bool)
  | finished
  deriving DecidableEq, Repr

/-- What the walk hands out. -/
abbrev Item := Except PathError Segment

namespace Cursor

/-- The place after a segment: the end, a bracket, or a dot that makes another segment due. -/
def afterSegment : List Char → Except PathError Cursor
  | [] => .ok (.reading [] false)
  | '.' :: rest => .ok (.reading rest true)
  | '[' :: rest => .ok (.reading ('[' :: rest) false)
  | c :: _ => .error (.unexpectedCharacter c)

/-- A segment together with the place after it, or the mistake that stands there. -/
def handOut (s : Segment) (rest : List Char) : Item × Cursor :=
  match afterSegment rest with
  | .ok c => (.ok s, c)
  | .error e => (.error e, .finished)

/-- Whether a character ends a key. -/
def endsKey (c : Char) : Bool := c == '.' || c == '['

/-- The key at the start of some characters, up to a dot or an opening bracket. -/
def keyChars (cs : List Char) : List Char := cs.takeWhile fun c => !endsKey c

/-- What follows the key. -/
def afterKey (cs : List Char) : List Char := cs.dropWhile fun c => !endsKey c

/-- The characters up to a closing bracket, and those after it. -/
def selector? : List Char → Option (List Char × List Char)
  | [] => none
  | c :: cs =>
      if c = ']' then some ([], cs) else (selector? cs).map fun p => (c :: p.1, p.2)

/-- The next item of the walk and the place after it. -/
def next : Cursor → Option (Item × Cursor)
  | .broken e => some (.error e, .finished)
  | .finished => none
  | .reading [] true => some (.error .emptySegment, .finished)
  | .reading [] false => none
  | .reading ('[' :: inner) _ =>
      match selector? inner with
      | none => some (.error .unclosedBracket, .finished)
      | some (sel, rest) =>
          if sel = ['*'] then some (handOut .wildcard rest)
          else some (.error (.unsupportedSelector (String.ofList sel)), .finished)
  | .reading cs _ =>
      match keyChars cs with
      | [] => some (.error .emptySegment, .finished)
      | c :: key => some (handOut (.key (String.ofList (c :: key))) (afterKey cs))

/-- A bound on the number of items that are left. -/
def span : Cursor → Nat
  | .broken _ => 2
  | .reading rest _ => rest.length + 2
  | .finished => 1

/-- The first `n` items of the walk. -/
def itemsWithin : Nat → Cursor → List Item
  | 0, _ => []
  | n + 1, c =>
      match c.next with
      | none => []
      | some (item, rest) => item :: itemsWithin n rest

/-- All items of the walk. -/
def items (c : Cursor) : List Item := itemsWithin c.span c

end Cursor

/-! ## 4. Paths -/

/-- An attribute path, as it is written. -/
structure Path where
  text : String
  deriving DecidableEq, Repr

namespace Path

/-- The path has no characters. -/
def isEmpty (p : Path) : Bool := p.text.toList.isEmpty

/-- The characters before the first dot and those after it. -/
def cutAtDot? : List Char → Option (List Char × List Char)
  | [] => none
  | c :: cs => if c = '.' then some ([], cs) else (cutAtDot? cs).map fun p => (c :: p.1, p.2)

/-- The namespace of a path and the characters after its dot. -/
def split? (p : Path) : Option (Namespace × List Char) :=
  (cutAtDot? p.text.toList).bind fun (head, rest) =>
    (Namespace.ofName? (String.ofList head)).map fun n => (n, rest)

/-- The start of the walk. -/
def cursor (p : Path) : Cursor :=
  match p.split? with
  | some (_, rest) => .reading rest true
  | none => .broken .unknownNamespace

/-- The segments of a path, up to the first mistake. -/
def items (p : Path) : List Item := p.cursor.items

/-- The first mistake among the items, where a wildcard must not come first. -/
def firstMistake : List Item → Option PathError
  | .ok .wildcard :: _ => some .leadingWildcard
  | items => items.findSome? fun
      | .ok _ => none
      | .error e => some e

/-- The namespace of a well-formed path. -/
def check (p : Path) : Except PathError Namespace :=
  if p.isEmpty then .error .empty
  else match p.split? with
    | none => .error .unknownNamespace
    | some (n, _) =>
        match firstMistake p.items with
        | some e => .error e
        | none => .ok n

end Path

end Gatehouse
