import Gatehouse.Condition.Validity
import Gatehouse.Condition.Wire

/-!
# One trail for a whole check

`Condition.violationAt?` and `Wire.Node.decodeAt` hand each child a trail of its own. The same can
be done with one trail for all nodes, to which a step is pushed before a child and from which it is
popped when the child is done; an error leaves it as it is. What this file fixes, and what it shows
about both:

* `settled`: how a check ends that has such a trail: with the trail it was given if nothing was
  found, with the one to the place of the error otherwise;
* `Condition.checkNode`, `checkNode_eq`: the check of a tree with one trail ends as `violationAt?`
  says;
* `Wire.decodeNode`, `decodeNode_eq`: so does the decoding of records, as `decodeAt` says.
-/

namespace Gatehouse

variable {ε α : Type}

/-- The end of a check that was given a trail: it is as before, or leads to where the error is. -/
def settled (place : ε → Trail) (trail : Trail) : Except ε α → Except ε α × Trail
  | .ok x => (.ok x, trail)
  | .error e => (.error e, place e)

namespace Condition

/-! ## 1. Validity -/

mutual

/-- Checks a tree whose root lies at a depth, at the end of the trail. -/
def checkNode (limits : Limits) (depth : Nat) (trail : Trail) :
    Condition → Except Violation Unit × Trail
  | .leaf l d =>
      if limits.maxDepth < depth then
        (.error ⟨trail, .ofDescription d, .tooDeep limits.maxDepth⟩, trail)
      else match l.flaw? limits with
        | some f => (.error ⟨trail, .ofDescription d, f⟩, trail)
        | none => (.ok (), trail)
  | .branch logic children d =>
      if limits.maxDepth < depth then
        (.error ⟨trail, .ofDescription d, .tooDeep limits.maxDepth⟩, trail)
      else if children.isEmpty then
        (.error ⟨trail, .ofDescription d, .emptyBranch logic⟩, trail)
      else checkChildren limits (depth + 1) trail (.ofDescription d) 1 children

/-- Checks the children of a node, counted from `index`: a step is pushed for each and popped after
    it. -/
def checkChildren (limits : Limits) (depth : Nat) (trail : Trail) (parent : Label) (index : Nat) :
    List Condition → Except Violation Unit × Trail
  | [] => (.ok (), trail)
  | c :: cs =>
      match checkNode limits depth (trail ++ [⟨index, parent⟩]) c with
      | (.error v, pushed) => (.error v, pushed)
      | (.ok (), pushed) => checkChildren limits depth pushed.dropLast parent (index + 1) cs

end

variable {limits : Limits}

mutual

/-- **The check with one trail finds the first violation**, and the trail leads there. If there is
    none, the trail is as before. -/
theorem checkNode_eq : ∀ (c : Condition) (depth : Nat) (trail : Trail),
    checkNode limits depth trail c =
      settled Violation.trail trail ((violationAt? limits depth trail c).elim (.ok ()) .error)
  | .leaf l d, depth, trail => by
      rw [checkNode, violationAt?]
      by_cases hdeep : limits.maxDepth < depth
      · rw [if_pos hdeep, if_pos hdeep]
        rfl
      · rw [if_neg hdeep, if_neg hdeep]
        cases l.flaw? limits <;> rfl
  | .branch logic children d, depth, trail => by
      rw [checkNode, violationAt?]
      by_cases hdeep : limits.maxDepth < depth
      · rw [if_pos hdeep, if_pos hdeep]
        rfl
      · rw [if_neg hdeep, if_neg hdeep]
        by_cases hempty : children.isEmpty = true
        · rw [if_pos hempty, if_pos hempty]
          rfl
        · rw [if_neg hempty, if_neg hempty]
          exact checkChildren_eq children (depth + 1) trail (.ofDescription d) 1

theorem checkChildren_eq : ∀ (cs : List Condition) (depth : Nat) (trail : Trail) (parent : Label)
    (index : Nat), checkChildren limits depth trail parent index cs =
      settled Violation.trail trail
        ((violationAmong? limits depth trail parent index cs).elim (.ok ()) .error)
  | [], _, _, _, _ => by
      rw [checkChildren, violationAmong?]
      rfl
  | c :: cs, depth, trail, parent, index => by
      rw [checkChildren, checkNode_eq c depth (trail ++ [Frame.mk index parent]), violationAmong?]
      cases violationAt? limits depth (trail ++ [⟨index, parent⟩]) c with
      | some v => rfl
      | none =>
          show checkChildren limits depth (trail ++ [Frame.mk index parent]).dropLast parent
            (index + 1) cs = _
          rw [List.dropLast_concat]
          exact checkChildren_eq cs depth trail parent (index + 1)

end

/-- **The check of a whole tree**, with a trail that is empty at first. -/
theorem checkNode_root (c : Condition) (limits : Limits) :
    (checkNode limits 1 [] c).1 = c.validate limits := by
  rw [checkNode_eq, validate, violation?]
  cases violationAt? limits 1 [] c <;> rfl

end Condition

namespace Wire

/-! ## 2. Decoding -/

mutual

/-- Decodes a record at the end of the trail. -/
def decodeNode (trail : Trail) : Node → Except ShapeError Condition × Trail
  | .node description logic children leaf =>
      let fault (f : ShapeFault) : Except ShapeError Condition × Trail :=
        (.error ⟨trail, .ofDescription description, f⟩, trail)
      match leaf with
      | some l =>
          if (filled? logic).isSome || children.isSome then fault .leafAndBranch
          else match l.decode with
            | .error f => fault f
            | .ok l => (.ok (.leaf l description), trail)
      | none =>
          match filled? logic with
          | none =>
              match children with
              | some (_ :: _) => fault .missingLogic
              | _ => fault .emptyNode
          | some name =>
              match Logic.ofName? name with
              | none => fault (.unknownLogic name)
              | some logic =>
                  match children with
                  | none => (.ok (.branch logic [] description), trail)
                  | some cs =>
                      match decodeChildren trail (.ofDescription description) 1 [] cs with
                      | (.error e, left) => (.error e, left)
                      | (.ok decoded, left) => (.ok (.branch logic decoded description), left)

/-- Decodes the children of a node, counted from `index`, and puts each tree behind those that are
    there. A step is pushed for each and popped after it. -/
def decodeChildren (trail : Trail) (parent : Label) (index : Nat) (decoded : List Condition) :
    List Node → Except ShapeError (List Condition) × Trail
  | [] => (.ok decoded, trail)
  | c :: cs =>
      match decodeNode (trail ++ [⟨index, parent⟩]) c with
      | (.error e, pushed) => (.error e, pushed)
      | (.ok d, pushed) =>
          decodeChildren pushed.dropLast parent (index + 1) (decoded ++ [d]) cs

end

mutual

/-- **Decoding with one trail gives the same trees and meets the same errors**, and the trail leads
    to where the error is. If there is none, it is as before. -/
theorem decodeNode_eq : ∀ (n : Node) (trail : Trail),
    decodeNode trail n = settled ShapeError.trail trail (n.decodeAt trail)
  | .node description logic children (some l), trail => by
      unfold decodeNode Node.decodeAt
      by_cases hboth : ((filled? logic).isSome || children.isSome) = true
      · simp only [if_pos hboth]
        rfl
      · simp only [if_neg hboth]
        cases l.decode <;> rfl
  | .node description logic none none, trail => by
      unfold decodeNode Node.decodeAt
      cases filled? logic with
      | none => rfl
      | some name =>
          cases hname : Logic.ofName? name <;> simp only [hname] <;> rfl
  | .node description logic (some cs) none, trail => by
      unfold decodeNode Node.decodeAt
      cases filled? logic with
      | none => cases cs <;> rfl
      | some name =>
          cases hname : Logic.ofName? name with
          | none => simp only [hname]; rfl
          | some logic =>
              simp only [hname]
              rw [decodeChildren_eq cs trail (.ofDescription description) 1 []]
              cases decodeAmong trail (.ofDescription description) 1 cs <;> rfl

theorem decodeChildren_eq : ∀ (cs : List Node) (trail : Trail) (parent : Label) (index : Nat)
    (decoded : List Condition), decodeChildren trail parent index decoded cs =
      settled ShapeError.trail trail ((decodeAmong trail parent index cs).map (decoded ++ ·))
  | [], trail, _, _, decoded => by
      rw [decodeChildren, decodeAmong, Except.map, List.append_nil]
      rfl
  | c :: cs, trail, parent, index, decoded => by
      rw [decodeChildren, decodeNode_eq c (trail ++ [Frame.mk index parent]), decodeAmong]
      cases c.decodeAt (trail ++ [⟨index, parent⟩]) with
      | error e => rfl
      | ok d =>
          show decodeChildren (trail ++ [Frame.mk index parent]).dropLast parent (index + 1)
            (decoded ++ [d]) cs = _
          rw [List.dropLast_concat, decodeChildren_eq cs trail parent (index + 1) (decoded ++ [d])]
          cases decodeAmong trail parent (index + 1) cs with
          | error e => rfl
          | ok ds => simp only [Except.map, List.append_assoc, List.singleton_append]

end

/-- **The decoding of a whole record**, with a trail that is empty at first. -/
theorem decodeNode_root (n : Node) : (decodeNode [] n).1 = n.decode := by
  rw [decodeNode_eq, Node.decode]
  cases n.decodeAt [] <;> rfl

end Wire

end Gatehouse
