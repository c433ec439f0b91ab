import Gatehouse.Condition

/-!
# Validity of conditions

What this file fixes:

* `Limits`: how deep a tree may be nested, and whether a check for null may carry a comparand;
* `Violation`: what a tree can violate, with the trail to the node, and its wording;
* `Condition.validate`: the first violation in pre-order, if there is one. A node is checked for
  its depth before anything else.
-/

namespace Gatehouse

/-! ## 1. Limits -/

/-- The limits that trees are held to. -/
structure Limits where
  rejectUnaryComparand : Bool
  maxDepth : Nat
  deriving DecidableEq, Repr

/-- The limits where none are given. -/
def Limits.standard : Limits := ⟨true, 32⟩

/-! ## 2. Violations -/

/-- The place of a path in a leaf. -/
inductive PathField where
  | checked
  | comparand
  deriving DecidableEq, Repr

/-- The name of the place in documents. -/
def PathField.name : PathField → String
  | .checked => "attribute"
  | .comparand => "resource_attribute"

/-- What is wrong with a node. -/
inductive Flaw where
  | missingAttribute
  | missingComparand (path : Path) (operator : Operator)
  | unexpectedComparand (path : Path) (operator : Operator)
  | invalidPath (field : PathField) (path : Path) (reason : PathError)
  | emptyBranch (logic : Logic)
  | tooDeep (maxDepth : Nat)
  deriving DecidableEq, Repr

/-- The wording of a flaw of the node with the given label. -/
def Flaw.message (node : Label) : Flaw → String
  | .missingAttribute => "leaf node" ++ node.text ++ " is missing required 'attribute'"
  | .missingComparand p o =>
      "leaf node" ++ node.text ++ " (attribute '" ++ p.text ++ "', operator '" ++ o.name
        ++ "') requires either 'value' or 'resource_attribute'"
  | .unexpectedComparand p o =>
      "leaf node" ++ node.text ++ " (attribute '" ++ p.text ++ "', operator '" ++ o.name
        ++ "') does not take 'value' or 'resource_attribute'"
  | .invalidPath field p reason =>
      "leaf node" ++ node.text ++ " has invalid '" ++ field.name ++ "' ('" ++ p.text ++ "'): "
        ++ reason.message
  | .emptyBranch logic =>
      "branch node" ++ node.text ++ " has 'logic_type' " ++ logic.name ++ " but no 'children'"
  | .tooDeep n =>
      "node" ++ node.text ++ " is nested deeper than the maximum of " ++ toString n ++ " levels"

/-- A flaw with the node it is found at. -/
structure Violation where
  trail : Trail
  node : Label
  flaw : Flaw
  deriving DecidableEq, Repr

/-- The wording of a violation, the trail in front. -/
def Violation.message (v : Violation) : String := v.trail.text ++ v.flaw.message v.node

/-! ## 3. The check -/

namespace Leaf

/-- The first flaw of a leaf, if it has one. -/
def flaw? (limits : Limits) (l : Leaf) : Option Flaw :=
  if l.path.isEmpty then some .missingAttribute
  else if l.operator.arity = .binary ∧ l.comparand = .absent then
    some (.missingComparand l.path l.operator)
  else if l.operator.arity = .unary ∧ l.comparand ≠ .absent ∧ limits.rejectUnaryComparand then
    some (.unexpectedComparand l.path l.operator)
  else match l.path.check with
    | .error e => some (.invalidPath .checked l.path e)
    | .ok _ =>
        match l.comparand with
        | .path p =>
            match p.check with
            | .error e => some (.invalidPath .comparand p e)
            | .ok _ => none
        | _ => none

end Leaf

namespace Condition

mutual

/-- The first violation of a tree whose root lies at a depth, at the end of a trail. -/
def violationAt? (limits : Limits) (depth : Nat) (trail : Trail) : Condition → Option Violation
  | .leaf l d =>
      if limits.maxDepth < depth then
        some ⟨trail, .ofDescription d, .tooDeep limits.maxDepth⟩
      else (l.flaw? limits).map fun f => ⟨trail, .ofDescription d, f⟩
  | .branch logic children d =>
      if limits.maxDepth < depth then
        some ⟨trail, .ofDescription d, .tooDeep limits.maxDepth⟩
      else if children.isEmpty then some ⟨trail, .ofDescription d, .emptyBranch logic⟩
      else violationAmong? limits (depth + 1) trail (.ofDescription d) 1 children

/-- The first violation of the children of a node, counted from `index`. -/
def violationAmong? (limits : Limits) (depth : Nat) (trail : Trail) (parent : Label)
    (index : Nat) : List Condition → Option Violation
  | [] => none
  | c :: cs =>
      match violationAt? limits depth (trail ++ [⟨index, parent⟩]) c with
      | some v => some v
      | none => violationAmong? limits depth trail parent (index + 1) cs

end

/-- The first violation of a tree, if there is one. -/
def violation? (limits : Limits) (c : Condition) : Option Violation :=
  violationAt? limits 1 [] c

/-- Accepts a tree without violation. -/
def validate (limits : Limits) (c : Condition) : Except Violation Unit :=
  match c.violation? limits with
  | some v => .error v
  | none => .ok ()

end Condition

end Gatehouse
