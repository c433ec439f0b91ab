import Gatehouse.Context

/-!
# Operators

What this file fixes:

* `Operator`: the five comparisons, with their names, arities and the phrases of explanations;
* `EvalError`: why a comparison could not be decided, and its wording;
* `Operator.apply`: the outcome of a comparison. An absent list contains nothing; an absent value
  to look for is an error, and so is any absent side of an equation.
-/

namespace Gatehouse

/-! ## 1. The table -/

/-- A comparison that a leaf makes. -/
inductive Operator where
  | equals
  | notEquals
  | isNull
  | isNotNull
  | contains
  deriving DecidableEq, Repr

/-- Whether an operator takes a comparand. -/
inductive Arity where
  | unary
  | binary
  deriving DecidableEq, Repr

namespace Operator

/-- Every operator, in the order of the table. -/
def all : List Operator := [.equals, .notEquals, .isNull, .isNotNull, .contains]

/-- The name in documents. -/
def name : Operator → String
  | .equals => "Equals"
  | .notEquals => "NotEquals"
  | .isNull => "IsNull"
  | .isNotNull => "IsNotNull"
  | .contains => "Contains"

/-- The operator of a name. -/
def ofName? (s : String) : Option Operator := all.find? fun o => o.name == s

/-- Whether the operator takes a comparand. -/
def arity : Operator → Arity
  | .equals | .notEquals | .contains => .binary
  | .isNull | .isNotNull => .unary

/-- What is expected of the attribute, in an explanation. -/
def expectation : Operator → String
  | .equals => "to equal"
  | .notEquals => "to differ from"
  | .isNull => "to be null or absent"
  | .isNotNull => "to be present and not null"
  | .contains => "to contain"

end Operator

/-- The name of an arity. -/
def Arity.name : Arity → String
  | .unary => "Unary"
  | .binary => "Binary"

/-! ## 2. Errors -/

/-- Why a comparison could not be decided. -/
inductive EvalError where
  | missingAttribute (path : Path) (operator : Operator)
  | typeMismatch (path : Path) (operator : Operator) (found : String)
  | missingComparand (path : Path) (operator : Operator)
  deriving DecidableEq, Repr

/-- The wording of an evaluation error; lists are the only kind ever expected. -/
def EvalError.message : EvalError → String
  | .missingAttribute a o =>
      "attribute '" ++ a.text ++ "' is absent and cannot be compared with " ++ o.name
  | .typeMismatch a o found =>
      o.name ++ " expects '" ++ a.text ++ "' to be an array, found " ++ found
  | .missingComparand a o => o.name ++ " on '" ++ a.text ++ "' has no comparand"

/-! ## 3. Outcomes -/

/-- What an operator is given: the leaf's path and what it leads to, and the comparand, if there
    is one, with its own path if it has one. -/
structure Operands where
  path : Path
  value : Resolved
  comparandPath : Option Path
  comparand : Option Resolved
  deriving DecidableEq, Repr

namespace Operands

/-- The value of the comparand; if it is absent, its path is to blame, if it has one. -/
def comparandValue (x : Operands) (o : Operator) : Except EvalError Value :=
  match x.comparand with
  | none => .error (.missingComparand x.path o)
  | some .absent => .error (.missingAttribute (x.comparandPath.getD x.path) o)
  | some (.present v) => .ok v

/-- Whether the two sides agree; both must be there. -/
def sidesAgree (x : Operands) (o : Operator) : Except EvalError Bool :=
  match x.value with
  | .absent => .error (.missingAttribute x.path o)
  | .present v => (x.comparandValue o).map fun w => v.agrees w

/-- Whether the attribute's list has an item that agrees with the comparand. -/
def listContains (x : Operands) : Except EvalError Bool :=
  match x.value with
  | .absent => .ok false
  | .present (.array items) =>
      (x.comparandValue .contains).map fun w => items.any fun v => v.agrees w
  | .present v => .error (.typeMismatch x.path .contains v.kindName)

end Operands

/-- The outcome of a comparison. -/
def Operator.apply (o : Operator) (x : Operands) : Except EvalError Bool :=
  match o with
  | .equals => x.sidesAgree .equals
  | .notEquals => (x.sidesAgree .notEquals).map (!·)
  | .isNull => .ok x.value.isNull
  | .isNotNull => .ok (!x.value.isNull)
  | .contains => x.listContains

end Gatehouse
