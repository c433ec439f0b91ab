import Gatehouse.Condition.Evaluation

/-!
# The walk through a branch

What this file fixes, and what it shows about `Condition.evaluate`:

* `Logic.decisive`: the verdict of one child that settles a branch;
* `Condition.walk`: the walk through the children of a branch, up to an error or a decisive verdict;
  `evaluate_of_walk_other`, `exists_first_of_walk_decisive`: what its outcome says of the children;
* `evaluate_branch`: this walk, one for both kinds of branch, is what a branch with children comes
  to.
-/

namespace Gatehouse

/-- The verdict of one child that decides a branch. -/
def Logic.decisive : Logic → Bool
  | .and => false
  | .or => true

namespace Condition

variable {ctx : Context} {logic : Logic} {c : Condition} {cs : List Condition}

/-- What the children of a branch come to, one after the other. -/
def walk (ctx : Context) (logic : Logic) : List Condition → Except EvalError Bool
  | [] => .ok !logic.decisive
  | c :: cs =>
      match evaluate ctx c with
      | .ok b => if b = logic.decisive then .ok b else walk ctx logic cs
      | .error e => .error e

/-- An error ends the walk. -/
theorem walk_of_error {e : EvalError} (h : c.evaluate ctx = .error e) :
    walk ctx logic (c :: cs) = .error e := by
  rw [walk, h]

/-- So does a decisive verdict. -/
theorem walk_of_decisive (h : c.evaluate ctx = .ok logic.decisive) :
    walk ctx logic (c :: cs) = .ok logic.decisive := by
  rw [walk, h]
  exact if_pos rfl

/-- After any other verdict the walk goes on. -/
theorem walk_of_other (h : c.evaluate ctx = .ok !logic.decisive) :
    walk ctx logic (c :: cs) = walk ctx logic cs := by
  rw [walk, h]
  exact if_neg (Bool.not_eq_self _).mp

/-- **What the first child does to the walk**: it ends it with its error or its decisive verdict, or it
    plays no part. -/
theorem walk_cases (ctx : Context) (logic : Logic) (c : Condition) (cs : List Condition) :
    (∃ e, c.evaluate ctx = .error e ∧ walk ctx logic (c :: cs) = .error e) ∨
    (c.evaluate ctx = .ok logic.decisive ∧ walk ctx logic (c :: cs) = .ok logic.decisive) ∨
    (c.evaluate ctx = .ok (!logic.decisive) ∧ walk ctx logic (c :: cs) = walk ctx logic cs) := by
  cases hc : c.evaluate ctx with
  | error e => exact Or.inl ⟨e, rfl, walk_of_error hc⟩
  | ok b =>
    right
    by_cases hb : b = logic.decisive
    · subst hb
      exact Or.inl ⟨rfl, walk_of_decisive hc⟩
    · obtain rfl : b = !logic.decisive := Bool.eq_not.mpr hb
      exact Or.inr ⟨rfl, walk_of_other hc⟩

/-- A walk that was never settled has come to every child, and none of them settled it. -/
theorem evaluate_of_walk_other (h : walk ctx logic cs = .ok !logic.decisive) :
    ∀ c ∈ cs, c.evaluate ctx = .ok !logic.decisive := by
  induction cs with
  | nil =>
      intro c hc
      cases hc
  | cons c cs ih =>
      rcases walk_cases ctx logic c cs with ⟨e, _, hw⟩ | ⟨_, hw⟩ | ⟨hc, hw⟩
      · rw [hw] at h
        cases h
      · rw [hw, Except.ok.injEq] at h
        exact absurd h.symm (Bool.not_eq_self _).mp
      · rw [hw] at h
        exact List.forall_mem_cons.mpr ⟨hc, ih h⟩

/-- A walk that was settled was so by one child, after children that did not settle it. -/
theorem exists_first_of_walk_decisive (h : walk ctx logic cs = .ok logic.decisive) :
    ∃ (i : Nat) (c : Condition), cs[i]? = some c ∧ c.evaluate ctx = .ok logic.decisive ∧
      ∀ (j : Nat) (k : Condition), j < i → cs[j]? = some k →
        k.evaluate ctx = .ok !logic.decisive := by
  induction cs with
  | nil =>
      rw [walk, Except.ok.injEq] at h
      exact absurd h (Bool.not_eq_self _).mp
  | cons c cs ih =>
      rcases walk_cases ctx logic c cs with ⟨e, _, hw⟩ | ⟨hc, _⟩ | ⟨hc, hw⟩
      · rw [hw] at h
        cases h
      · exact ⟨0, c, rfl, hc, fun j _ hj => absurd hj (Nat.not_lt_zero j)⟩
      · rw [hw] at h
        obtain ⟨i, k, hk, hdecisive, hbefore⟩ := ih h
        refine ⟨i + 1, k, hk, hdecisive, fun j k' hj hk' => ?_⟩
        cases j with
        | zero =>
            cases hk'
            exact hc
        | succ j => exact hbefore j k' (Nat.lt_of_succ_lt_succ hj) hk'

theorem evaluateAll_eq_walk (ctx : Context) : ∀ cs : List Condition,
    evaluateAll ctx cs = walk ctx .and cs
  | [] => by
      rw [evaluateAll]
      rfl
  | c :: cs => by
      have hcs := evaluateAll_eq_walk ctx cs
      rw [evaluateAll]
      rcases walk_cases ctx .and c cs with ⟨e, hc, hw⟩ | ⟨hc, hw⟩ | ⟨hc, hw⟩
      · rw [hc, hw]
      · rw [hc, hw]
        rfl
      · rw [hc, hw]
        exact hcs

theorem evaluateAny_eq_walk (ctx : Context) : ∀ cs : List Condition,
    evaluateAny ctx cs = walk ctx .or cs
  | [] => by
      rw [evaluateAny]
      rfl
  | c :: cs => by
      have hcs := evaluateAny_eq_walk ctx cs
      rw [evaluateAny]
      rcases walk_cases ctx .or c cs with ⟨e, hc, hw⟩ | ⟨hc, hw⟩ | ⟨hc, hw⟩
      · rw [hc, hw]
      · rw [hc, hw]
        rfl
      · rw [hc, hw]
        exact hcs

/-- **A branch with children is evaluated by the walk**, whatever its logic. -/
theorem evaluate_branch (logic : Logic) (c : Condition) (cs : List Condition)
    (d : Option String) : (branch logic (c :: cs) d).evaluate ctx = walk ctx logic (c :: cs) := by
  cases logic with
  | and => rw [evaluate, evaluateAll_eq_walk]
  | or => rw [evaluate, evaluateAny_eq_walk]

end Condition

end Gatehouse
