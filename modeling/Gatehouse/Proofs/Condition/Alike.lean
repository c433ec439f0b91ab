import Gatehouse.Proofs.Condition.Walk
import Gatehouse.Proofs.Decision

/-!
# Trees that differ in their leaves only

What this file fixes, and what it shows about `Condition.evaluate`:

* `Condition.Alike`: two trees of the same shape, with the same logics and descriptions, whose leaves
  are related one by one;
* `Alike.evaluate`: if related leaves have the same outcome up to errors, each in a context of its
  own, so have the trees.
-/

namespace Gatehouse

/-- Outcomes are the same up to any errors if they are the same verdict, or none. -/
theorem outcomeUpTo_true_iff {x y : Except EvalError Bool} :
    OutcomeUpTo (fun _ _ => True) x y ↔ ∀ b, x = .ok b ↔ y = .ok b := by
  constructor
  · intro h b
    cases h with
    | ok _ => exact Iff.rfl
    | error _ =>
        constructor
        · intro hx
          cases hx
        · intro hy
          cases hy
  · intro h
    cases x with
    | ok b =>
        rw [(h b).mp rfl]
        exact .ok b
    | error e =>
        cases y with
        | ok b => cases (h b).mpr rfl
        | error e' => exact .error trivial

namespace Condition

mutual

/-- The trees differ in their leaves only, and these are related. -/
inductive Alike (L : Leaf → Leaf → Prop) : Condition → Condition → Prop
  | leaf {l l' : Leaf} {d : Option String} : L l l' → Alike L (.leaf l d) (.leaf l' d)
  | branch {logic : Logic} {cs cs' : List Condition} {d : Option String} :
      AlikeEach L cs cs' → Alike L (.branch logic cs d) (.branch logic cs' d)

/-- The trees differ one by one in their leaves only, and these are related. -/
inductive AlikeEach (L : Leaf → Leaf → Prop) : List Condition → List Condition → Prop
  | nil : AlikeEach L [] []
  | cons {c c' : Condition} {cs cs' : List Condition} : Alike L c c' → AlikeEach L cs cs' →
      AlikeEach L (c :: cs) (c' :: cs')

end

variable {L : Leaf → Leaf → Prop} {E : EvalError → EvalError → Prop} {ctx ctx' : Context}

mutual

/-- **Trees have the same outcome up to errors if their leaves have.** -/
theorem Alike.evaluate
    (hL : ∀ l l', L l l' → OutcomeUpTo E (l.evaluate ctx) (l'.evaluate ctx')) {c c' : Condition}
    (h : c.Alike L c') : OutcomeUpTo E (c.evaluate ctx) (c'.evaluate ctx') :=
  match h with
  | .leaf hl => by
      rw [Condition.evaluate, Condition.evaluate]
      exact hL _ _ hl
  | .branch .nil => by
      rw [Condition.evaluate, Condition.evaluate]
      exact .ok false
  | @Alike.branch _ logic _ _ _ (.cons hc hrest) => by
      rw [evaluate_branch, evaluate_branch]
      exact AlikeEach.walk hL logic (.cons hc hrest)

theorem AlikeEach.walk
    (hL : ∀ l l', L l l' → OutcomeUpTo E (l.evaluate ctx) (l'.evaluate ctx')) (logic : Logic)
    {cs cs' : List Condition} (h : AlikeEach L cs cs') :
    OutcomeUpTo E (Condition.walk ctx logic cs) (Condition.walk ctx' logic cs') :=
  match h with
  | .nil => .ok _
  | @AlikeEach.cons _ c c' _ _ hc hrest => by
      have hfirst := Alike.evaluate hL hc
      have hafter := AlikeEach.walk hL logic hrest
      rw [Condition.walk, Condition.walk]
      generalize c.evaluate ctx = x at hfirst ⊢
      generalize c'.evaluate ctx' = y at hfirst ⊢
      cases hfirst with
      | error hE => exact .error hE
      | ok b =>
          -- the same verdict settles both branches, or leaves both to the children after it
          by_cases hb : b = logic.decisive
          · simp only [if_pos hb]
            exact .ok b
          · simp only [if_neg hb]
            exact hafter

end

end Condition

end Gatehouse
