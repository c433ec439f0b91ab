import Gatehouse.Number
import Gatehouse.Uuid

/-!
# Attribute values

What this file fixes:

* `Value`: null, booleans, numbers, strings, lists and objects. An object that was read lists its
  entries by key, in code point order and without repetition (`ofEntries`);
* `Attributes`: the entries of one object, as a caller supplies them;
* `Value.agrees`: the equality that rules compare with. Numbers agree by value, strings that spell
  the same UUID agree, lists agree item by item and objects key by key.
-/

namespace Gatehouse

/-- An untyped value. -/
inductive Value where
  | null
  | bool (b : Bool)
  | number (n : Number)
  | string (s : String)
  | array (items : List Value)
  | object (entries : List (String × Value))
  deriving Repr, Inhabited

/-- A map from attribute names to values. -/
abbrev Attributes := List (String × Value)

namespace Value

/-! ## 1. Objects -/

/-- Puts an entry at its place in a list sorted by key, in place of an entry of that key. -/
def insertEntry {α : Type} (key : String) (value : α) : List (String × α) → List (String × α)
  | [] => [(key, value)]
  | (k, v) :: rest =>
      if key = k then (key, value) :: rest
      else if key < k then (key, value) :: (k, v) :: rest
      else (k, v) :: insertEntry key value rest

/-- The entries sorted by key; of several with one key the last stays. -/
def sortEntries {α : Type} (entries : List (String × α)) : List (String × α) :=
  entries.foldl (fun sorted e => insertEntry e.1 e.2 sorted) []

/-- The object of the given entries. -/
def ofEntries (entries : List (String × Value)) : Value := .object (sortEntries entries)

/-- An object with the entries that are there, in the order given. -/
def record (entries : List (String × Option Value)) : Value :=
  .object (entries.filterMap fun e => e.2.map fun v => (e.1, v))

/-- An integer as a value. -/
def int (n : Int) : Value := .number (.int n)

/-- The name of a value's kind, for messages. -/
def kindName : Value → String
  | .null => "null"
  | .bool _ => "boolean"
  | .number _ => "number"
  | .string _ => "string"
  | .array _ => "array"
  | .object _ => "object"

/-! ## 2. Agreement -/

/-- Two strings agree if they are equal or spell the same UUID. -/
def stringsAgree (a b : String) : Bool := a == b || Uuid.sameSpelled a b

mutual

/-- The two values agree. -/
def agrees : Value → Value → Bool
  | .null, .null => true
  | .bool a, .bool b => a == b
  | .number a, .number b => a.agrees b
  | .string a, .string b => stringsAgree a b
  | .array as, .array bs => itemsAgree as bs
  | .object as, .object bs => as.length == bs.length && entriesAgree as bs
  | _, _ => false

/-- The items agree one by one, and there are equally many. -/
def itemsAgree : List Value → List Value → Bool
  | [], [] => true
  | a :: as, b :: bs => agrees a b && itemsAgree as bs
  | _, _ => false

/-- Every entry on the left has one on the right, of the same key and with an agreeing value. -/
def entriesAgree : List (String × Value) → List (String × Value) → Bool
  | [], _ => true
  | (k, a) :: as, bs =>
      (match bs.lookup k with
        | some b => agrees a b
        | none => false) && entriesAgree as bs

end

/-! ## 3. Identity -/

mutual

/-- The two values are the same. -/
def same : Value → Value → Bool
  | .null, .null => true
  | .bool a, .bool b => a == b
  | .number a, .number b => a == b
  | .string a, .string b => a == b
  | .array as, .array bs => sameItems as bs
  | .object as, .object bs => sameEntries as bs
  | _, _ => false

/-- The items are the same one by one. -/
def sameItems : List Value → List Value → Bool
  | [], [] => true
  | a :: as, b :: bs => same a b && sameItems as bs
  | _, _ => false

/-- The entries are the same one by one. -/
def sameEntries : List (String × Value) → List (String × Value) → Bool
  | [], [] => true
  | (k, a) :: as, (l, b) :: bs => k == l && same a b && sameEntries as bs
  | _, _ => false

end

mutual

theorem same_iff : ∀ a b : Value, same a b = true ↔ a = b
  | .null, b => by cases b <;> simp [same]
  | .bool a, b => by cases b <;> simp [same]
  | .number a, b => by cases b <;> simp [same]
  | .string a, b => by cases b <;> simp [same]
  | .array as, b => by cases b <;> simp [same, sameItems_iff as]
  | .object as, b => by cases b <;> simp [same, sameEntries_iff as]

theorem sameItems_iff : ∀ as bs : List Value, sameItems as bs = true ↔ as = bs
  | [], bs => by cases bs <;> simp [sameItems]
  | a :: as, [] => by simp [sameItems]
  | a :: as, b :: bs => by simp [sameItems, same_iff a b, sameItems_iff as bs]

theorem sameEntries_iff : ∀ as bs : List (String × Value), sameEntries as bs = true ↔ as = bs
  | [], bs => by cases bs <;> simp [sameEntries]
  | (k, a) :: as, [] => by simp [sameEntries]
  | (k, a) :: as, (l, b) :: bs => by
      simp [sameEntries, same_iff a b, sameEntries_iff as bs, and_assoc]

end

instance : DecidableEq Value := fun a b => decidable_of_iff _ (same_iff a b)

end Value

end Gatehouse
