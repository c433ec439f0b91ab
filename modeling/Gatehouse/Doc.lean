import Gatehouse.Doc.Scalar

/-!
# Documents

What this file fixes:

* `Doc`: what a reader of a text hands over before anything is known about its meaning. The
  bracketed forms (`array`, `object`) have typed atoms and text keys; the layout forms
  (`sequence`, `mapping`) have untyped scalars, and any document as a key. A list or map with a
  local tag (`tagged`) can be read by type only;
* the readings of a document by type: strings, booleans, numbers, lists, optional values, choices,
  free values, attribute maps and the fields of records. Every reading is an `Option`: a document
  that does not fit gives none, and no part is looked at that the type does not ask for;
* `Doc.settle?`: a document with all its scalars resolved, in which all objects are mappings.
-/

namespace Gatehouse

/-- What a reader hands over. -/
inductive Doc where
  | atom (a : Atom)
  | array (items : List Doc)
  | object (entries : List (String × Doc))
  | scalar (s : Scalar)
  | sequence (items : List Doc)
  | mapping (entries : List (Doc × Doc))
  | tagged (d : Doc)
  deriving Repr, Inhabited

namespace Doc

/-! ## 1. Simple readings -/

/-- The document that no type accepts. -/
def unreadable : Doc := .atom .unreadable

/-- A string; of an untyped scalar its text as it stands. -/
def string? : Doc → Option String
  | .atom (.string s) => some s
  | .scalar s => some s.text
  | _ => none

/-- A boolean. -/
def bool? : Doc → Option Bool
  | .atom (.bool b) => some b
  | .scalar s => s.bool?
  | _ => none

/-- A natural number of 64 bits. -/
def natural? : Doc → Option Nat
  | .atom (.number (.int n)) => if 0 ≤ n then some n.toNat else none
  | .scalar s => s.natural?
  | _ => none

/-- A UUID, in any of its spellings. -/
def uuid? (d : Doc) : Option Uuid := d.string?.bind Uuid.parse?

/-- The items of a list; where nothing is written, there are none. -/
def items? : Doc → Option (List Doc)
  | .array items => some items
  | .sequence items => some items
  | .scalar s => if s.isNothing then some [] else none
  | .tagged d => items? d
  | _ => none

/-- A list, item by item. -/
def list? {α : Type} (read : Doc → Option α) (d : Doc) : Option (List α) :=
  d.items?.bind fun items => items.mapM read

/-- A value that may be null. -/
def optional? {α : Type} (read : Doc → Option α) (d : Doc) : Option (Option α) :=
  match d with
  | .atom .null => some none
  | .scalar s =>
      match s.presence with
      | .none => some none
      | .some => (read d).map some
      | .refused => none
  | _ => (read d).map some

/-- A document stands for nothing but null. -/
def isNull : Doc → Bool
  | .atom .null => true
  | _ => false

/-- One of several names: a string, or the only key of an object, with null as its value. In a
    settled document the key may be the position of the name, and the value an empty mapping. -/
def choice? (names : List String) : Doc → Option String
  | .atom (.string s) => names.find? (· == s)
  | .scalar s => s.choice?.bind fun n => names.find? (· == n)
  | .object [(k, d)] => if d.isNull then names.find? (· == k) else none
  | .mapping [(.atom k, d)] =>
      if d matches .atom .null | .mapping [] then
        match k with
        | .string s => names.find? (· == s)
        | .number (.int n) => if 0 ≤ n then names[n.toNat]? else none
        | _ => none
      else none
  | _ => none

/-! ## 2. Free values -/

/-- The key of an entry; of an untyped scalar its text as it stands. -/
def key? : Doc → Option String
  | .atom (.string s) => some s
  | .scalar s => some s.text
  | _ => none

mutual

/-- A free value. -/
def value? : Doc → Option Value
  | .atom a => a.value?
  | .array items => (values? items).map .array
  | .object entries => (entryValues? entries).map .ofEntries
  | .scalar s => s.resolve.value?
  | .sequence items => (values? items).map .array
  | .mapping entries => (mappedValues? entries).map .ofEntries
  | .tagged _ => none

/-- Free values, one by one. -/
def values? : List Doc → Option (List Value)
  | [] => some []
  | d :: ds =>
      match value? d, values? ds with
      | some v, some vs => some (v :: vs)
      | _, _ => none

/-- The free values of entries with text keys. -/
def entryValues? : List (String × Doc) → Option (List (String × Value))
  | [] => some []
  | (k, d) :: ds =>
      match value? d, entryValues? ds with
      | some v, some vs => some ((k, v) :: vs)
      | _, _ => none

/-- The free values of entries with documents as keys. -/
def mappedValues? : List (Doc × Doc) → Option (List (String × Value))
  | [] => some []
  | (k, d) :: ds =>
      match key? k, value? d, mappedValues? ds with
      | some s, some v, some vs => some ((s, v) :: vs)
      | _, _, _ => none

end

/-- An attribute map; where nothing is written, it is empty. -/
def attributes? : Doc → Option Attributes
  | .object entries => (entryValues? entries).map Value.sortEntries
  | .mapping entries => (mappedValues? entries).map Value.sortEntries
  | .scalar s => if s.isNothing then some [] else none
  | .tagged d => attributes? d
  | _ => none

mutual

/-- A free value as a document. -/
def ofValue : Value → Doc
  | .null => .atom .null
  | .bool b => .atom (.bool b)
  | .number n => .atom (.number n)
  | .string s => .atom (.string s)
  | .array items => .array (ofValues items)
  | .object entries => .object (ofEntries entries)

/-- Free values as documents, one by one. -/
def ofValues : List Value → List Doc
  | [] => []
  | v :: vs => ofValue v :: ofValues vs

/-- The entries of an object as documents. -/
def ofEntries : List (String × Value) → List (String × Doc)
  | [] => []
  | (k, v) :: vs => (k, ofValue v) :: ofEntries vs

end

/-! ## 3. Records -/

/-- The fields of a record that are there. -/
abbrev Fields := List (String × Doc)

/-- The entries of the fields a record knows; none of them may be there twice. -/
def knownFields? (names : List String) (entries : List (String × Doc)) : Option Fields :=
  let known := entries.filter fun e => names.contains e.1
  if (known.map Prod.fst).Nodup then some known else none

/-- Entries with text keys, if all keys are such. -/
def textEntries? (entries : List (Doc × Doc)) : Option (List (String × Doc)) :=
  entries.mapM fun e => e.1.key?.map fun k => (k, e.2)

/-- The fields of a record with the given field names. An array lists the fields in their order;
    where nothing is written, there are none. -/
def fields? (names : List String) : Doc → Option Fields
  | .object entries => knownFields? names entries
  | .mapping entries => (textEntries? entries).bind (knownFields? names)
  | .array items => if items.length ≤ names.length then some (names.zip items) else none
  | .scalar s => if s.isNothing then some [] else none
  | .tagged d => fields? names d
  | _ => none

namespace Fields

/-- A field that must be there. -/
def required {α : Type} (fs : Fields) (name : String) (read : Doc → Option α) : Option α :=
  (fs.lookup name).bind read

/-- A field that has a default. -/
def defaulted {α : Type} (fs : Fields) (name : String) (standard : α) (read : Doc → Option α) :
    Option α :=
  match fs.lookup name with
  | none => some standard
  | some d => read d

/-- A field that may be missing or null. -/
def optional {α : Type} (fs : Fields) (name : String) (read : Doc → Option α) :
    Option (Option α) :=
  fs.defaulted name none (optional? read)

end Fields

/-! ## 4. Depth -/

mutual

/-- The number of levels of a document. -/
def depth : Doc → Nat
  | .atom _ => 1
  | .array items => depthOfItems items + 1
  | .object entries => depthOfEntries entries + 1
  | .scalar _ => 1
  | .sequence items => depthOfItems items + 1
  | .mapping entries => depthOfMapped entries + 1
  | .tagged d => depth d

/-- The number of levels of the deepest item. -/
def depthOfItems : List Doc → Nat
  | [] => 0
  | d :: ds => max (depth d) (depthOfItems ds)

/-- The number of levels of the deepest entry. -/
def depthOfEntries : List (String × Doc) → Nat
  | [] => 0
  | (_, d) :: ds => max (depth d) (depthOfEntries ds)

/-- The number of levels of the deepest value. -/
def depthOfMapped : List (Doc × Doc) → Nat
  | [] => 0
  | (_, d) :: ds => max (depth d) (depthOfMapped ds)

end

/-! ## 5. Settled documents -/

mutual

/-- The document with all its scalars resolved, if every part of it is readable. -/
def settle? : Doc → Option Doc
  | .atom a => if a = .unreadable then none else some (.atom a)
  | .array items => (settleItems? items).map .array
  | .object entries => (settleEntries? entries).map fun es =>
      .mapping (es.map fun e => (.atom (.string e.1), e.2))
  | .scalar s => if s.resolve = .unreadable then none else some (.atom s.resolve)
  | .sequence items => (settleItems? items).map .array
  | .mapping entries => (settleMapped? entries).map .mapping
  | .tagged _ => none

/-- Documents with all their scalars resolved, one by one. -/
def settleItems? : List Doc → Option (List Doc)
  | [] => some []
  | d :: ds =>
      match settle? d, settleItems? ds with
      | some e, some es => some (e :: es)
      | _, _ => none

/-- Entries with all their scalars resolved. -/
def settleEntries? : List (String × Doc) → Option (List (String × Doc))
  | [] => some []
  | (k, d) :: ds =>
      match settle? d, settleEntries? ds with
      | some e, some es => some ((k, e) :: es)
      | _, _ => none

/-- Entries with all the scalars of keys and values resolved. -/
def settleMapped? : List (Doc × Doc) → Option (List (Doc × Doc))
  | [] => some []
  | (k, d) :: ds =>
      match settle? k, settle? d, settleMapped? ds with
      | some l, some e, some es => some ((l, e) :: es)
      | _, _, _ => none

end

end Doc

end Gatehouse
