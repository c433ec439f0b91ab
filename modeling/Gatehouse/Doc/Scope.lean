import Gatehouse.Doc

/-!
# What a reading looks at

What this file fixes:

* `Doc.Scope`: the parts of a document that a reading by type looks at. A record is asked for the
  fields that it knows, and all else in it is passed over; whatever is no record is looked at as a
  whole;
* `Scope.item`, `Scope.field?`: the scope of an item, and of a field if it is looked at.
-/

namespace Gatehouse.Doc

/-- Which parts of a document are looked at: all, the same parts of each item, some fields of a
    record, or those of a record whose field `name` lists records of its own kind. -/
inductive Scope where
  | whole
  | items (s : Scope)
  | fields (known : List (String × Scope))
  | tree (name : String) (known : List (String × Scope))
  deriving Repr, Inhabited

namespace Scope

/-- Fields that are looked at as wholes. -/
def ofNames (names : List String) : List (String × Scope) := names.map fun n => (n, .whole)

/-- A record all of whose known fields are looked at as wholes. -/
def record (names : List String) : Scope := .fields (ofNames names)

/-- The same fields, where one of them has a scope of its own. -/
def refine (known : List (String × Scope)) (name : String) (s : Scope) : List (String × Scope) :=
  known.map fun f => if f.1 = name then (name, s) else f

/-- The fields of a record, in order; none of what is no record. -/
def known : Scope → List (String × Scope)
  | .fields known => known
  | .tree name known => refine known name (.items (.tree name known))
  | _ => []

/-- The scope of the item at an index. A list in place of a record has the fields in order. -/
def item : Scope → Nat → Scope
  | .whole, _ => .whole
  | .items s, _ => s
  | s, n => (s.known[n]?.map Prod.snd).getD .whole

/-- The scope of the entry with a key, unless the entry is passed over. -/
def field? : Scope → Doc → Option Scope
  | .whole, _ => some .whole
  | .items _, _ => some .whole
  | s, k => k.key?.bind fun name => s.known.lookup name

end Scope

end Gatehouse.Doc
