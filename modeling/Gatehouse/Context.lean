import Gatehouse.Path
import Gatehouse.Value.Text

/-!
# Contexts and resolution

What this file fixes:

* `Context`: the six attribute maps that rules read;
* `Resolved`: what a path leads to. An attribute that is absent differs from one that is null;
* `Context.resolve`: the walk of a path through a context. It never fails: whatever cannot be
  followed is absent. A wildcard collects what the rest of the path leads to from each item of a
  list, leaving out the items where that is absent;
* `Resolved.display`: how a resolved value is shown in an explanation, at most 100 bytes of it.
-/

namespace Gatehouse

/-! ## 1. Contexts -/

/-- What a condition may read. -/
structure Context where
  subject : Attributes
  resource : Attributes
  path : Attributes
  body : Attributes
  query : Attributes
  header : Attributes
  deriving DecidableEq, Repr

namespace Context

/-- The map of a namespace. -/
def attributes (ctx : Context) : Namespace → Attributes
  | .subject => ctx.subject
  | .resource => ctx.resource
  | .path => ctx.path
  | .body => ctx.body
  | .query => ctx.query
  | .header => ctx.header

end Context

/-! ## 2. What a path leads to -/

/-- What a path leads to. -/
inductive Resolved where
  | absent
  | present (v : Value)
  deriving DecidableEq, Repr

namespace Resolved

/-- The outcome of a look-up. -/
def ofOption : Option Value → Resolved
  | none => .absent
  | some v => .present v

/-- The value, if there is one. -/
def value? : Resolved → Option Value
  | .absent => none
  | .present v => some v

/-- Absent or null. -/
def isNull : Resolved → Bool
  | .absent => true
  | .present .null => true
  | .present _ => false

/-- The most bytes of a value that an explanation shows. -/
def displayLimit : Nat := 100

/-- The text of a resolved value in an explanation. -/
def display : Resolved → String
  | .absent => "<absent>"
  | .present v => String.ofList (Text.elide displayLimit v.compactChars)

end Resolved

/-! ## 3. Resolution -/

/-- The position that a key names in a list: a key of decimal digits only. -/
def listIndex? (key : String) : Option Nat :=
  let cs := key.toList
  if !cs.isEmpty && cs.all Char.isDigit then some (Text.decimalValue cs) else none

/-- The entry or item of a value that a key names. -/
def Value.child? (v : Value) (key : String) : Option Value :=
  match v with
  | .object entries => entries.lookup key
  | .array items => (listIndex? key).bind fun i => items[i]?
  | _ => none

/-- What the segments lead to from a value. -/
def Value.descend? : List Item → Value → Option Value
  | [], v => some v
  | .error _ :: _, _ => none
  | .ok (.key k) :: rest, v => (v.child? k).bind (descend? rest)
  | .ok .wildcard :: rest, v =>
      match v with
      | .array items => some (.array (items.filterMap (descend? rest)))
      | _ => none

/-- The header of a name: the one spelled so, else the first that differs only in the case of
    ASCII letters. -/
def header? (headers : Attributes) (name : String) : Option Value :=
  match headers.lookup name with
  | some v => some v
  | none => (headers.find? fun e => Text.sameIgnoringCase e.1 name).map Prod.snd

namespace Context

/-- The entry of a namespace that a first key selects. -/
def entry? (ctx : Context) (n : Namespace) (key : String) : Option Value :=
  match n with
  | .header => header? ctx.header key
  | n => (ctx.attributes n).lookup key

/-- What a path leads to in a context. -/
def resolve (ctx : Context) (p : Path) : Resolved :=
  match p.split?, p.items with
  | some (n, _), .ok (.key k) :: rest => .ofOption ((ctx.entry? n k).bind (Value.descend? rest))
  | _, _ => .absent

end Context

end Gatehouse
