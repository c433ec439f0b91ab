import Gatehouse.Proofs.Condition.Walk
import Gatehouse.Proofs.Explanation

/-!
# Walks that are given a list for their notes

`Condition.explainAt` returns the lines about what failed. The same can be done with one list that
all nodes write to, or with none if nobody asks for lines. What this file fixes, and what it shows
about `Condition.explain` and `Condition.evaluate`:

* `Condition.noting`: the walk that is given notes or none. A failed node puts its lines at their
  end; the children of a branch write to a scratch list of their own, which is kept only if the
  branch fails;
* `Tells`: what the verdict and the scratch list of children have to do with their explanation. The
  list counts only if they failed: a branch that holds, or meets an error, may leave lines there;
* `noting_eq`: the notes come out with the lines of `explainAt` at their end, or unchanged if there
  was an error;
* `noting_none`, `explainNoting_eq`: without notes this is `evaluate`, and with a fresh list it is
  `explain`.
-/

namespace Gatehouse

/-- A verdict, and the notes after it if any are taken. -/
abbrev Noted := Except EvalError Bool × Option (List String)

namespace Condition

/-! ## 1. The walk -/

/-- A line at the end of the notes. -/
def note (line : String) (notes : Option (List String)) : Option (List String) :=
  notes.map (· ++ [line])

/-- The scratch list of the children of a branch, if notes are taken. -/
def scratchOf (notes : Option (List String)) : Option (List String) := notes.map fun _ => []

/-- The end of a branch: what the children left is kept, under the line about the branch, if the
    branch failed. -/
def closeBranch (head : String) (notes : Option (List String)) : Noted → Noted
  | (.ok false, some scratch) => (.ok false, notes.map (· ++ head :: scratch))
  | (verdict, _) => (verdict, notes)

mutual

/-- The verdict of a tree whose root lies at a depth, and the notes after it. -/
def noting (ctx : Context) (depth : Nat) (notes : Option (List String)) : Condition → Noted
  | .leaf l d =>
      match l.evaluate ctx with
      | .error e => (.error e, notes)
      | .ok true => (.ok true, notes)
      | .ok false => (.ok false, note (l.failureLine ctx depth (.ofDescription d)) notes)
  | .branch logic [] d => (.ok false, note (emptyLine depth logic (.ofDescription d)) notes)
  | .branch logic (c :: cs) d =>
      closeBranch (headLine depth logic (.ofDescription d)) notes
        (notingAmong ctx (depth + 1) logic (scratchOf notes) (c :: cs))

/-- The verdict of the children of a branch, up to the first that decides it, and the scratch list
    after them. -/
def notingAmong (ctx : Context) (depth : Nat) (logic : Logic) (scratch : Option (List String)) :
    List Condition → Noted
  | [] => (.ok !logic.decisive, scratch)
  | c :: cs =>
      match noting ctx depth scratch c with
      | (.error e, left) => (.error e, left)
      | (.ok b, left) =>
          if b = logic.decisive then (.ok b, left) else notingAmong ctx depth logic left cs

end

/-- An explanation with a fresh list, which is emptied if the tree holds. -/
def explainNoting (ctx : Context) (c : Condition) : Except EvalError (Bool × List String) :=
  match noting ctx 0 (some []) c with
  | (.error e, _) => .error e
  | (.ok true, _) => .ok (true, [])
  | (.ok false, notes) => .ok (false, notes.getD [])

/-! ## 2. What the lists hold -/

variable {ctx : Context} {notes : Option (List String)}

/-- The notes after a tree with the given explanation. -/
def afterwards (notes : Option (List String)) : Except EvalError Explanation → Noted
  | .error e => (.error e, notes)
  | .ok x => (.ok x.isMatched, notes.map (· ++ x.lines))

/-- Children ended as their explanation tells. What they left in the scratch list is known only if
    they failed. -/
def Tells (scratch : Option (List String)) (r : Noted) : Except EvalError Explanation → Prop
  | .error e => r.1 = .error e
  | .ok .matched => r.1 = .ok true
  | .ok (.failed ls) => r = (.ok false, scratch.map (· ++ ls))

/-- Lines of nothing change no notes. -/
theorem map_append_nil (notes : Option (List String)) : notes.map (· ++ []) = notes := by
  cases notes with
  | none => rfl
  | some ns => exact congrArg some ns.append_nil

/-- Notes at whose end lines are put twice. -/
theorem map_append_append (notes : Option (List String)) (ls more : List String) :
    (notes.map (· ++ ls)).map (· ++ more) = notes.map (· ++ (ls ++ more)) := by
  cases notes with
  | none => rfl
  | some ns => exact congrArg some (ns.append_assoc ls more)

/-- A branch ends as the explanation of its children tells, under its own line. -/
theorem closeBranch_eq {head : String} {r : Noted} {x : Except EvalError Explanation}
    (h : Tells (scratchOf notes) r x) :
    closeBranch head notes r = afterwards notes (x.map (under head)) := by
  obtain ⟨verdict, left⟩ := r
  cases x with
  | error e =>
      have hv : verdict = .error e := h
      rw [hv]
      rfl
  | ok x =>
      cases x with
      | matched =>
          have hv : verdict = .ok true := h
          rw [hv]
          exact Prod.ext rfl (map_append_nil notes).symm
      | failed ls =>
          have hv : (verdict, left) = (.ok false, (scratchOf notes).map (· ++ ls)) := h
          rw [hv]
          cases notes with
          | none => rfl
          | some ns => rfl

mutual

/-- **The notes come out with the lines of the explanation at their end**, or unchanged if there was
    an error. -/
theorem noting_eq : ∀ (c : Condition) (depth : Nat) (notes : Option (List String)),
    noting ctx depth notes c = afterwards notes (explainAt ctx depth c)
  | .leaf l d, depth, notes => by
      rw [noting, explainAt]
      cases l.evaluate ctx with
      | error e => rfl
      | ok b =>
          cases b with
          | true => exact Prod.ext rfl (map_append_nil notes).symm
          | false => rfl
  | .branch logic [] d, depth, notes => by
      rw [noting, explainAt]
      rfl
  | .branch .and (c :: cs) d, depth, notes => by
      rw [noting, explainAt]
      exact closeBranch_eq (tells_explainAll (c :: cs) (depth + 1) (scratchOf notes))
  | .branch .or (c :: cs) d, depth, notes => by
      rw [noting, explainAt]
      exact closeBranch_eq (tells_explainAny (c :: cs) (depth + 1) (scratchOf notes))

theorem tells_explainAll : ∀ (cs : List Condition) (depth : Nat) (scratch : Option (List String)),
    Tells scratch (notingAmong ctx depth .and scratch cs) (explainAll ctx depth cs)
  | [], _, _ => by
      rw [notingAmong, explainAll]
      rfl
  | c :: cs, depth, scratch => by
      rw [notingAmong, noting_eq c depth scratch, explainAll]
      cases explainAt ctx depth c with
      | error e => rfl
      | ok x =>
          cases x with
          | failed ls => rfl
          | matched =>
              -- a child that holds has left no line of its own in the list
              show Tells scratch (notingAmong ctx depth .and (scratch.map (· ++ [])) cs) _
              rw [map_append_nil]
              exact tells_explainAll cs depth scratch

theorem tells_explainAny : ∀ (cs : List Condition) (depth : Nat) (scratch : Option (List String)),
    Tells scratch (notingAmong ctx depth .or scratch cs) (explainAny ctx depth cs)
  | [], _, scratch => by
      rw [notingAmong, explainAny]
      exact Prod.ext rfl (map_append_nil scratch).symm
  | c :: cs, depth, scratch => by
      rw [notingAmong, noting_eq c depth scratch, explainAny]
      cases explainAt ctx depth c with
      | error e => rfl
      | ok x =>
          cases x with
          | matched => rfl
          | failed ls =>
              have ih := tells_explainAny cs depth (scratch.map (· ++ ls))
              cases hmore : explainAny ctx depth cs with
              | error e => rw [hmore] at ih; exact ih
              | ok y =>
                  rw [hmore] at ih
                  cases y with
                  | matched => exact ih
                  | failed more =>
                      exact ih.trans (congrArg _ (map_append_append scratch ls more))

end

/-! ## 3. With and without notes -/

/-- **Without notes the walk is evaluation.** -/
theorem noting_none (c : Condition) (ctx : Context) (depth : Nat) :
    noting ctx depth none c = (c.evaluate ctx, none) := by
  rw [noting_eq, ← map_isMatched_explainAt c depth]
  cases explainAt ctx depth c <;> rfl

/-- **With a fresh list it is explanation.** -/
theorem explainNoting_eq (c : Condition) (ctx : Context) :
    explainNoting ctx c = (c.explain ctx).map fun x => (x.isMatched, x.lines) := by
  rw [explainNoting, noting_eq, explain]
  cases explainAt ctx 0 c with
  | error e => rfl
  | ok x => cases x <;> rfl

end Condition

end Gatehouse
