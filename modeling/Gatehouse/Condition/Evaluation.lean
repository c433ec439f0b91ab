import Gatehouse.Condition

/-!
# Evaluation and explanation

What this file fixes:

* `Condition.evaluate`: the outcome of a tree in a context. Children are visited in order and only
  until the outcome of their branch is settled; an error of a visited child ends the walk; a branch
  without children is false;
* `Condition.explain`: the same walk, which also tells what failed, one line for each failed node
  that made the tree fail;
* `Explanation.reason`: these lines in one sentence.
-/

namespace Gatehouse

/-! ## 1. Evaluation -/

namespace Comparand

/-- The path of a comparand that is an attribute. -/
def path? : Comparand → Option Path
  | .path p => some p
  | _ => none

/-- What a comparand stands for in a context. -/
def resolve (ctx : Context) : Comparand → Option Resolved
  | .absent => none
  | .literal v => some (.present v)
  | .path p => some (ctx.resolve p)

end Comparand

namespace Leaf

/-- What the operator of a leaf is given in a context. -/
def operands (ctx : Context) (l : Leaf) : Operands :=
  ⟨l.path, ctx.resolve l.path, l.comparand.path?, l.comparand.resolve ctx⟩

/-- The outcome of a leaf. -/
def evaluate (ctx : Context) (l : Leaf) : Except EvalError Bool :=
  l.operator.apply (l.operands ctx)

end Leaf

namespace Condition

mutual

/-- The outcome of a tree. -/
def evaluate (ctx : Context) : Condition → Except EvalError Bool
  | .leaf l _ => l.evaluate ctx
  | .branch _ [] _ => .ok false
  | .branch .and (c :: cs) _ => evaluateAll ctx (c :: cs)
  | .branch .or (c :: cs) _ => evaluateAny ctx (c :: cs)

/-- Whether all trees hold, up to the first that does not. -/
def evaluateAll (ctx : Context) : List Condition → Except EvalError Bool
  | [] => .ok true
  | c :: cs =>
      match evaluate ctx c with
      | .ok true => evaluateAll ctx cs
      | .ok false => .ok false
      | .error e => .error e

/-- Whether one of the trees holds, up to the first that does. -/
def evaluateAny (ctx : Context) : List Condition → Except EvalError Bool
  | [] => .ok false
  | c :: cs =>
      match evaluate ctx c with
      | .ok true => .ok true
      | .ok false => evaluateAny ctx cs
      | .error e => .error e

end

end Condition

/-! ## 2. Explanation -/

/-- The outcome of a tree with the lines that tell why it failed. -/
inductive Explanation where
  | matched
  | failed (lines : List String)
  deriving DecidableEq, Repr

namespace Explanation

/-- The tree holds. -/
def isMatched : Explanation → Bool
  | .matched => true
  | .failed _ => false

/-- The lines of a failure. -/
def lines : Explanation → List String
  | .matched => []
  | .failed ls => ls

/-- A line without the blanks at both ends. -/
def trimmed (line : String) : String := String.ofList (Text.trim line.toList)

/-- The outcome in one sentence. -/
def reason : Explanation → String
  | .matched => "all conditions matched"
  | .failed [] => "conditions not met"
  | .failed ls => "conditions not met: " ++ Text.joinWith "; " (ls.map trimmed)

end Explanation

/-- The blanks in front of a line about a node at a depth. -/
def indent (depth : Nat) : String := String.ofList (List.replicate (2 * depth) ' ')

namespace Leaf

/-- What the line about a failed leaf says of the comparand. -/
def comparandText (ctx : Context) (l : Leaf) : String :=
  match l.operator.arity, l.comparand with
  | .unary, _ => ""
  | .binary, .absent => ""
  | .binary, .literal v => " " ++ (Resolved.present v).display
  | .binary, .path p => " " ++ p.text ++ " (" ++ (ctx.resolve p).display ++ ")"

/-- What the line about a failed leaf says of the leaf's own description. -/
def descriptionText (l : Leaf) : String :=
  match l.description.filter fun s => !s.isEmpty with
  | none => ""
  | some s => " [" ++ s ++ "]"

/-- The line about a failed leaf. -/
def failureLine (ctx : Context) (depth : Nat) (l : Leaf) (label : Label) : String :=
  indent depth ++ l.path.text ++ " " ++ l.operator.name ++ " failed" ++ label.text ++ ": value "
    ++ (ctx.resolve l.path).display ++ ", expected " ++ l.operator.expectation
    ++ l.comparandText ctx ++ l.descriptionText

end Leaf

namespace Condition

/-- The line about a branch without children. -/
def emptyLine (depth : Nat) (logic : Logic) (label : Label) : String :=
  indent depth ++ logic.name ++ " group" ++ label.text ++ " has no conditions"

/-- The line above those of the children that made a branch fail. -/
def headLine (depth : Nat) (logic : Logic) (label : Label) : String :=
  indent depth ++ logic.name ++ " group" ++ label.text ++ " did not match"

/-- An explanation of children under the line about their branch. -/
def under (head : String) : Explanation → Explanation
  | .matched => .matched
  | .failed ls => .failed (head :: ls)

mutual

/-- The outcome of a tree whose root lies at a depth, with the lines about what failed. -/
def explainAt (ctx : Context) (depth : Nat) : Condition → Except EvalError Explanation
  | .leaf l d =>
      (l.evaluate ctx).map fun
        | true => .matched
        | false => .failed [l.failureLine ctx depth (.ofDescription d)]
  | .branch logic [] d => .ok (.failed [emptyLine depth logic (.ofDescription d)])
  | .branch .and (c :: cs) d =>
      (explainAll ctx (depth + 1) (c :: cs)).map
        (under (headLine depth .and (.ofDescription d)))
  | .branch .or (c :: cs) d =>
      (explainAny ctx (depth + 1) (c :: cs)).map
        (under (headLine depth .or (.ofDescription d)))

/-- Whether all trees hold, with the lines about the first that does not. -/
def explainAll (ctx : Context) (depth : Nat) : List Condition → Except EvalError Explanation
  | [] => .ok .matched
  | c :: cs =>
      match explainAt ctx depth c with
      | .ok .matched => explainAll ctx depth cs
      | .ok (.failed ls) => .ok (.failed ls)
      | .error e => .error e

/-- Whether one of the trees holds, with the lines about all of them if none does. -/
def explainAny (ctx : Context) (depth : Nat) : List Condition → Except EvalError Explanation
  | [] => .ok (.failed [])
  | c :: cs =>
      match explainAt ctx depth c with
      | .ok .matched => .ok .matched
      | .ok (.failed ls) => (explainAny ctx depth cs).map fun
          | .matched => .matched
          | .failed more => .failed (ls ++ more)
      | .error e => .error e

end

/-- The outcome of a tree with the lines about what failed. -/
def explain (ctx : Context) (c : Condition) : Except EvalError Explanation :=
  explainAt ctx 0 c

end Condition

end Gatehouse
