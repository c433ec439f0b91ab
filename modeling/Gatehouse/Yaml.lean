import Gatehouse.Doc.Scope
import Gatehouse.Yaml.Layout
import Gatehouse.Yaml.Node

/-!
# YAML texts

What this file fixes:

* `Yaml.expand`: the document of a node, in which every use of an anchor stands for the anchored
  node. Only what a reading looks at is expanded. Collections in it that are nested too deep are
  unreadable, and so are uses of anchors beyond a number that grows with the text, so that no text
  stands for much more than it says;
* `Yaml.read?`: the document of a YAML text, which has one document only.
-/

namespace Gatehouse.Yaml

open Doc (Scope)

/-- The deepest nesting of collections that is read. -/
def maxLevels : Nat := 128

/-- The number of uses of anchors for each part of a text. -/
def usesPerPart : Nat := 100

/-- A list or map with its tag; only a local one matters. -/
def withTag (tag : Option Tag) (d : Doc) : Doc :=
  if (tag.bind Tag.localName?).isSome then .tagged d else d

/-- The node that an anchor stands for. -/
def target? (anchored : List (Nat × Node)) (n : Nat) : Option Node :=
  anchored.reverse.lookup n

/-- What turns a node into a document, as far as a scope goes: given the number of uses that are
    left, the document and the number of uses that are left after it. -/
abbrev Expansion := Scope → Nat → Node → Doc × Nat

/-- Turns the items of a list into documents, counted from `n`. -/
def expandList (expand : Expansion) (scope : Scope) : Nat → Nat → List Node → List Doc × Nat
  | _, uses, [] => ([], uses)
  | n, uses, i :: is =>
      let first := expand (scope.item n) uses i
      let later := expandList expand scope (n + 1) first.2 is
      (first.1 :: later.1, later.2)

/-- Turns the entries of a map into documents. One that is passed over has no value to read. -/
def expandEntries (expand : Expansion) (scope : Scope) :
    Nat → List (Node × Node) → List (Doc × Doc) × Nat
  | uses, [] => ([], uses)
  | uses, (k, v) :: rest =>
      let key := expand .whole uses k
      let value := match scope.field? key.1 with
        | some s => expand s key.2 v
        | none => (.unreadable, key.2)
      let later := expandEntries expand scope value.2 rest
      ((key.1, value.1) :: later.1, later.2)

/-- The document of a node that is no use of an anchor, given those of the nodes inside it. -/
def expandParts (expand : Expansion) (scope : Scope) (uses : Nat) : Node → Doc × Nat
  | .use _ => (.unreadable, uses)
  | .scalar _ s => (.scalar s, uses)
  | .sequence _ tag items =>
      let p := expandList expand scope 0 uses items
      (withTag tag (.sequence p.1), p.2)
  | .mapping _ tag entries =>
      let p := expandEntries expand scope uses entries
      (withTag tag (.mapping p.1), p.2)

/-- The document of a node as far as a scope goes, where at most `levels` collections are nested,
    and the number of uses of anchors that are left. -/
def expand (anchored : List (Nat × Node)) : Nat → Expansion
  | _, _, uses, .scalar _ s => (.scalar s, uses)
  | 0, _, uses, .use n =>
      match uses, target? anchored n with
      | left + 1, some (.scalar _ s) => (.scalar s, left)
      | _, _ => (.unreadable, uses - 1)
  | 0, _, uses, _ => (.unreadable, uses)
  | levels + 1, scope, uses, .use n =>
      match uses, target? anchored n with
      | left + 1, some node => expandParts (expand anchored levels) scope left node
      | _, _ => (.unreadable, uses - 1)
  | levels + 1, scope, uses, node => expandParts (expand anchored levels) scope uses node

/-- The document of a root node, as far as a scope goes. -/
def docOf (scope : Scope) (n : Node) : Doc :=
  (expand n.anchored maxLevels scope (n.size * usesPerPart) n).1

/-- The document of a YAML text, as far as a scope goes. -/
def read? (scope : Scope) (text : String) : Option Doc :=
  ((tokens? text).bind document?).map (docOf scope)

end Gatehouse.Yaml
