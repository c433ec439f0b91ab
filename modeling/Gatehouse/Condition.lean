import Gatehouse.Operator

/-!
# Conditions

What this file fixes:

* `Condition`: a tree whose leaves check one attribute each and whose branches join their children
  by AND or OR. Any node may carry a description;
* `Label` and `Trail`: how messages name a node and the way to it from the root.
-/

namespace Gatehouse

/-! ## 1. Trees -/

/-- How a branch joins its children. -/
inductive Logic where
  | and
  | or
  deriving DecidableEq, Repr

namespace Logic

/-- The name in documents. -/
def name : Logic → String
  | .and => "AND"
  | .or => "OR"

/-- The logic of a name. -/
def ofName? (s : String) : Option Logic := [Logic.and, Logic.or].find? fun l => l.name == s

end Logic

/-- What a leaf compares its attribute with: nothing, a literal value, or another attribute. -/
inductive Comparand where
  | absent
  | literal (v : Value)
  | path (p : Path)
  deriving DecidableEq, Repr

/-- The check of one attribute. -/
structure Leaf where
  path : Path
  operator : Operator
  comparand : Comparand
  description : Option String
  deriving DecidableEq, Repr

/-- A tree of checks. -/
inductive Condition where
  | leaf (check : Leaf) (description : Option String)
  | branch (logic : Logic) (children : List Condition) (description : Option String)
  deriving Repr

namespace Condition

/-- The description of the root. -/
def description : Condition → Option String
  | .leaf _ d => d
  | .branch _ _ d => d

/-- The root is a leaf. -/
def isLeaf : Condition → Bool
  | .leaf _ _ => true
  | .branch _ _ _ => false

/-! ## 2. Identity -/

mutual

/-- The two trees are the same. -/
def same : Condition → Condition → Bool
  | .leaf a d, .leaf b e => a == b && d == e
  | .branch l as d, .branch m bs e => l == m && sameChildren as bs && d == e
  | _, _ => false

/-- The trees are the same one by one. -/
def sameChildren : List Condition → List Condition → Bool
  | [], [] => true
  | a :: as, b :: bs => same a b && sameChildren as bs
  | _, _ => false

end

mutual

theorem same_iff : ∀ a b : Condition, same a b = true ↔ a = b
  | .leaf a d, b => by cases b <;> simp [same]
  | .branch l as d, b => by cases b <;> simp [same, sameChildren_iff as, and_assoc]

theorem sameChildren_iff : ∀ as bs : List Condition, sameChildren as bs = true ↔ as = bs
  | [], bs => by cases bs <;> simp [sameChildren]
  | a :: as, [] => by simp [sameChildren]
  | a :: as, b :: bs => by simp [sameChildren, same_iff a b, sameChildren_iff as bs]

end

instance : DecidableEq Condition := fun a b => decidable_of_iff _ (same_iff a b)

end Condition

/-! ## 3. Labels and trails -/

/-- How messages name a node: by its description, if that has any characters. -/
structure Label where
  name : Option String
  deriving DecidableEq, Repr

namespace Label

/-- The label of a description. -/
def ofDescription (d : Option String) : Label := ⟨d.filter fun s => !s.isEmpty⟩

/-- The words that a message puts after the kind of node. -/
def text (l : Label) : String :=
  match l.name with
  | none => ""
  | some s => " ('" ++ s ++ "')"

end Label

/-- The label of the root. -/
def Condition.label (c : Condition) : Label := .ofDescription c.description

/-- One step from a branch to its child at a position, counted from 1. -/
structure Frame where
  index : Nat
  parent : Label
  deriving DecidableEq, Repr

/-- The steps from the root to a node. -/
abbrev Trail := List Frame

/-- The words that a message starts with, one clause for each step. -/
def Trail.text (t : Trail) : String :=
  String.join (t.map fun f =>
    "invalid child node #" ++ toString f.index ++ " within node" ++ f.parent.text ++ ": ")

end Gatehouse
