import Gatehouse.Yaml.Token

/-!
# YAML nodes

What this file fixes:

* `Node`: scalars, lists, maps, and uses of an anchor by its number;
* `Feed`: the tokens that are left, with the tags and anchors known so far. An anchor's number is
  that of the names known before it, so that a name given again may share its number with the next
  new name; the last node of a number is the one that is meant;
* the grammar: one function for each kind of collection, each of which decides by the next token.
  Where a node is due and none stands, there is an empty scalar;
* `document?`: the only document of some tokens, if there is one.
-/

namespace Gatehouse.Yaml

/-! ## 1. Nodes -/

/-- A node. Its anchor is a number, its tag is written out. -/
inductive Node where
  | use (anchor : Nat)
  | scalar (anchor : Option Nat) (s : Scalar)
  | sequence (anchor : Option Nat) (tag : Option Tag) (items : List Node)
  | mapping (anchor : Option Nat) (tag : Option Tag) (entries : List (Node × Node))
  deriving Repr, Inhabited

/-- The scalar where nothing is written. -/
def nothing : Scalar := ⟨"", .plain, none⟩

namespace Node

/-- The node where nothing is written. -/
def empty : Node := .scalar none nothing

mutual

/-- The anchored nodes of a node, in the order in which they start. -/
def anchored : Node → List (Nat × Node)
  | .use _ => []
  | .scalar a s => match a with
      | some n => [(n, .scalar a s)]
      | none => []
  | .sequence a t items => match a with
      | some n => (n, .sequence a t items) :: anchoredItems items
      | none => anchoredItems items
  | .mapping a t entries => match a with
      | some n => (n, .mapping a t entries) :: anchoredEntries entries
      | none => anchoredEntries entries

/-- The anchored nodes of items. -/
def anchoredItems : List Node → List (Nat × Node)
  | [] => []
  | n :: ns => anchored n ++ anchoredItems ns

/-- The anchored nodes of entries. -/
def anchoredEntries : List (Node × Node) → List (Nat × Node)
  | [] => []
  | (k, v) :: rest => anchored k ++ anchored v ++ anchoredEntries rest

end

mutual

/-- The number of starts and ends of collections, scalars and uses of anchors. -/
def size : Node → Nat
  | .use _ => 1
  | .scalar _ _ => 1
  | .sequence _ _ items => sizeOfItems items + 2
  | .mapping _ _ entries => sizeOfEntries entries + 2

/-- The size of items. -/
def sizeOfItems : List Node → Nat
  | [] => 0
  | n :: ns => size n + sizeOfItems ns

/-- The size of entries. -/
def sizeOfEntries : List (Node × Node) → Nat
  | [] => 0
  | (k, v) :: rest => size k + size v + sizeOfEntries rest

end

end Node

/-! ## 2. Tokens to read -/

/-- The tokens that are left, what the handles of tags stand for, and the numbers of anchors. -/
structure Feed where
  tokens : List Token
  handles : List (String × Tag)
  anchors : List (String × Nat)
  deriving Repr

namespace Feed

/-- The feed without its first token. -/
def next (f : Feed) : Feed := { f with tokens := f.tokens.tail }

/-- The first token. -/
def head? (f : Feed) : Option Token := f.tokens.head?

/-- The first token is one of these. -/
def starts (f : Feed) (ts : List Token) : Bool := f.head?.any ts.contains

/-- Gives a name the next number. -/
def declare (f : Feed) (name : String) : Nat × Feed :=
  let n := f.anchors.length
  let others := f.anchors.map fun a => if a.1 = name then (name, n) else a
  (n, { f with anchors := if (f.anchors.lookup name).isSome then others
      else f.anchors ++ [(name, n)] })

/-- A tag written out. -/
def resolveTag? (f : Feed) (handle : String) (suffix : Tag) : Option Tag :=
  if handle.isEmpty then some suffix else (f.handles.lookup handle).map fun r => r.append suffix

/-- An anchor, if one stands here. -/
def anchor (f : Feed) : Option Nat × Feed :=
  match f.head? with
  | some (.anchor name) =>
      let d := f.next.declare name
      (some d.1, d.2)
  | _ => (none, f)

/-- A tag, if one stands here and its handle is known. -/
def tag? (f : Feed) : Option (Option Tag × Feed) :=
  match f.head? with
  | some (.tag handle suffix) =>
      (f.resolveTag? handle suffix).map fun t => (some t, f.next)
  | _ => some (none, f)

/-- An anchor and a tag, in either order, as far as they stand here. -/
def properties? (f : Feed) : Option (Option Nat × Option Tag × Feed) :=
  let first := f.anchor
  match first.1 with
  | some n => first.2.tag?.map fun (t, f) => (some n, t, f)
  | none =>
      f.tag?.map fun (t, f) =>
        if t.isSome then
          let second := f.anchor
          (second.1, t, second.2)
        else (none, none, f)

end Feed

/-! ## 3. The grammar -/

/-- Ends of an entry in a block mapping. -/
def mappingStops : List Token := [.key, .value, .blockEnd]

mutual

/-- A node; `fuel` bounds the steps. Only some places admit block collections, or the items of a
    list that is not indented further than its key. -/
def node? (block unindented : Bool) : Nat → Feed → Option (Node × Feed)
  | 0, _ => none
  | fuel + 1, f =>
      match f.head? with
      | some (.alias name) => (f.anchors.lookup name).map fun n => (.use n, f.next)
      | _ =>
          f.properties?.bind fun (anchor, tag, f) =>
            let sequence := fun (p : List Node × Feed) => (Node.sequence anchor tag p.1, p.2)
            let mapping := fun (p : List (Node × Node) × Feed) =>
              (Node.mapping anchor tag p.1, p.2)
            let missing := if anchor.isSome || tag.isSome then
                some (Node.scalar anchor ⟨"", .plain, tag⟩, f)
              else none
            match f.head? with
            | some (.scalar text style) => some (.scalar anchor ⟨text, style, tag⟩, f.next)
            | some .flowSequenceStart => (flowItems? true fuel f.next).map sequence
            | some .flowMappingStart => (flowEntries? true fuel f.next).map mapping
            | some .blockSequenceStart =>
                if block then (blockItems? fuel f.next).map sequence else missing
            | some .blockMappingStart =>
                if block then (blockEntries? fuel f.next).map mapping else missing
            | some .blockEntry =>
                if unindented then (unindentedItems? fuel f).map sequence else missing
            | _ => missing

/-- A node, or nothing if one of the given tokens stands here. -/
def nodeUnless? (stops : List Token) (block unindented : Bool) :
    Nat → Feed → Option (Node × Feed)
  | 0, _ => none
  | fuel + 1, f => if f.starts stops then some (.empty, f) else node? block unindented fuel f

/-- The items of a block sequence, up to its end. -/
def blockItems? : Nat → Feed → Option (List Node × Feed)
  | 0, _ => none
  | fuel + 1, f =>
      match f.head? with
      | some .blockEntry =>
          (nodeUnless? [.blockEntry, .blockEnd] true false fuel f.next).bind fun (n, f) =>
            (blockItems? fuel f).map fun (ns, f) => (n :: ns, f)
      | some .blockEnd => some ([], f.next)
      | _ => none

/-- The items of a list that is not indented further than its key. -/
def unindentedItems? : Nat → Feed → Option (List Node × Feed)
  | 0, _ => none
  | fuel + 1, f =>
      match f.head? with
      | some .blockEntry =>
          (nodeUnless? (.blockEntry :: mappingStops) true false fuel f.next).bind fun (n, f) =>
            (unindentedItems? fuel f).map fun (ns, f) => (n :: ns, f)
      | _ => some ([], f)

/-- The entries of a block mapping, up to its end. -/
def blockEntries? : Nat → Feed → Option (List (Node × Node) × Feed)
  | 0, _ => none
  | fuel + 1, f =>
      match f.head? with
      | some .key =>
          (nodeUnless? mappingStops true true fuel f.next).bind fun (k, f) =>
            (valueNode? mappingStops true fuel f).bind fun (v, f) =>
              (blockEntries? fuel f).map fun (rest, f) => ((k, v) :: rest, f)
      | some .blockEnd => some ([], f.next)
      | _ => none

/-- The value of an entry: what stands behind a colon, or nothing. -/
def valueNode? (stops : List Token) (block : Bool) : Nat → Feed → Option (Node × Feed)
  | 0, _ => none
  | fuel + 1, f =>
      match f.head? with
      | some .value => nodeUnless? stops block block fuel f.next
      | _ => some (.empty, f)

/-- The items of a flow sequence, up to its end. Between two of them there is a comma. -/
def flowItems? (first : Bool) : Nat → Feed → Option (List Node × Feed)
  | 0, _ => none
  | fuel + 1, f =>
      match f.head?, first with
      | some .flowSequenceEnd, _ => some ([], f.next)
      | some .flowEntry, false =>
          if f.next.head? = some .flowSequenceEnd then some ([], f.next.next)
          else (flowItem? fuel f.next).bind fun (n, f) =>
            (flowItems? false fuel f).map fun (ns, f) => (n :: ns, f)
      | _, true =>
          (flowItem? fuel f).bind fun (n, f) =>
            (flowItems? false fuel f).map fun (ns, f) => (n :: ns, f)
      | _, false => none

/-- An item of a flow sequence: a node, or a single entry of a map. Where such an entry has no key,
    the token in place of the key is lost. -/
def flowItem? : Nat → Feed → Option (Node × Feed)
  | 0, _ => none
  | fuel + 1, f =>
      match f.head? with
      | some .key =>
          let key := if f.next.starts [.value, .flowEntry, .flowSequenceEnd] then
              some (Node.empty, f.next.next)
            else node? false false fuel f.next
          key.bind fun (k, f) =>
            (valueNode? [.flowEntry, .flowSequenceEnd] false fuel f).map fun (v, f) =>
              (.mapping none none [(k, v)], f)
      | _ => node? false false fuel f

/-- The entries of a flow mapping, up to its end. Between two of them there is a comma. -/
def flowEntries? (first : Bool) : Nat → Feed → Option (List (Node × Node) × Feed)
  | 0, _ => none
  | fuel + 1, f =>
      match f.head?, first with
      | some .flowMappingEnd, _ => some ([], f.next)
      | some .flowEntry, false =>
          if f.next.head? = some .flowMappingEnd then some ([], f.next.next)
          else (flowPair? fuel f.next).bind fun (p, f) =>
            (flowEntries? false fuel f).map fun (ps, f) => (p :: ps, f)
      | _, true =>
          (flowPair? fuel f).bind fun (p, f) =>
            (flowEntries? false fuel f).map fun (ps, f) => (p :: ps, f)
      | _, false => none

/-- An entry of a flow mapping; without the token of a key it has no value. -/
def flowPair? : Nat → Feed → Option ((Node × Node) × Feed)
  | 0, _ => none
  | fuel + 1, f =>
      match f.head? with
      | some .key =>
          (nodeUnless? [.value, .flowEntry, .flowMappingEnd] false false fuel f.next).bind
            fun (k, f) =>
              (valueNode? [.flowEntry, .flowMappingEnd] false fuel f).map fun (v, f) =>
                ((k, v), f)
      | _ => (node? false false fuel f).map fun (k, f) => ((k, .empty), f)

end

/-! ## 4. Documents -/

/-- The handles that need no directive. -/
def standardHandles : List (String × Tag) := [("!", ⟨"!", false⟩), ("!!", .core "")]

/-- Reads the directives in front of a document: at most one version, which must be a known one,
    and handles, none of them twice. -/
def directives? (versioned : Bool) (handles : List (String × Tag)) :
    List Token → Option (List (String × Tag) × List Token)
  | .version major minor :: rest =>
      if versioned ∨ major ≠ 1 ∨ (minor ≠ 1 ∧ minor ≠ 2) then none
      else directives? true handles rest
  | .tagHandle handle replacement :: rest =>
      if (handles.lookup handle).isSome then none
      else directives? versioned (handles ++ [(handle, replacement)]) rest
  | rest => some (handles, rest)

/-- The tokens start the next document, or end the one before. -/
def atBoundary : List Token → Bool
  | [] => true
  | .documentStart :: _ => true
  | .documentEnd :: _ => true
  | .version _ _ :: _ => true
  | .tagHandle _ _ :: _ => true
  | _ => false

/-- There is nothing behind a document but marks of its end. -/
def endsHere (ts : List Token) : Bool := ts.all fun t => t == .documentEnd

/-- The node of a document that starts here. -/
def rootNode? (handles : List (String × Tag)) (ts : List Token) : Option Node :=
  (node? true false (4 * ts.length + 4) ⟨ts, handles, []⟩).bind fun (n, f) =>
    if endsHere f.tokens then some n else none

/-- The document of some tokens; no document at all is nothing. -/
def document? (ts : List Token) : Option Node :=
  if ts.isEmpty then some .empty
  else (directives? false [] ts).bind fun (handles, rest) =>
    let known := handles ++ standardHandles
    match rest with
    | .documentStart :: rest =>
        if atBoundary rest then (if endsHere rest then some .empty else none)
        else rootNode? known rest
    | rest => if rest.length = ts.length then rootNode? known rest else none

end Gatehouse.Yaml
