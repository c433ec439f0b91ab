import Gatehouse.Proofs.Condition.Places

/-!
# Conditions and their opposites

What this file fixes, and what it shows about `Condition.evaluate`:

* `Condition.dual`: the tree with AND and OR, and each operator and its opposite, exchanged;
* `EvalError.dual`: an evaluation error with the operator exchanged, and nothing else;
* `Condition.HasDual`: no leaf looks into a list and no branch is empty. `Contains` has no opposite
  among the operators, and a branch without children does not hold whatever its logic;
* `walk_dual`: the walks through the children of a branch and of its dual stop at the same child;
* `de_morgan`: the dual of a tree has the opposite verdict, or the same error but for the
  name of the operator.
-/

namespace Gatehouse

/-! ## 1. Duals -/

/-- The other way to join children. -/
def Logic.dual : Logic → Logic
  | .and => .or
  | .or => .and

/-- The operator that says the opposite; `contains` has none. -/
def Operator.dual : Operator → Operator
  | .equals => .notEquals
  | .notEquals => .equals
  | .isNull => .isNotNull
  | .isNotNull => .isNull
  | .contains => .contains

/-- The same error of the opposite operator. -/
def EvalError.dual : EvalError → EvalError
  | .missingAttribute p o => .missingAttribute p o.dual
  | .typeMismatch p o found => .typeMismatch p o.dual found
  | .missingComparand p o => .missingComparand p o.dual

/-- The leaf with the opposite operator. -/
def Leaf.dual (l : Leaf) : Leaf := { l with operator := l.operator.dual }

namespace Condition

mutual

/-- The tree with AND and OR, and each operator and its opposite, exchanged throughout. -/
def dual : Condition → Condition
  | .leaf l d => .leaf l.dual d
  | .branch logic cs d => .branch logic.dual (dualEach cs) d

/-- The duals of the trees, one by one. -/
def dualEach : List Condition → List Condition
  | [] => []
  | c :: cs => dual c :: dualEach cs

end

/-- The tree has no `contains` leaf and no branch without children. -/
structure HasDual (c : Condition) : Prop where
  noContains : ∀ l ∈ c.leaves, l.operator ≠ .contains
  noEmptyBranch : ∀ t logic d, ¬ c.HasAt t (.branch logic [] d)

end Condition

/-- The opposite verdict, or the error of the opposite operator. -/
def opposite : Except EvalError Bool → Except EvalError Bool
  | .ok b => .ok !b
  | .error e => .error e.dual

/-! ## 2. Leaves -/

namespace Operands

theorem comparandValue_dual (x : Operands) (o : Operator) :
    x.comparandValue o.dual = (x.comparandValue o).mapError EvalError.dual := by
  unfold comparandValue
  split <;> rfl

/-- Two sides are compared for an operator and for its opposite in the same way, and where one is
    missing, each names itself. -/
theorem sidesAgree_dual (x : Operands) (o : Operator) :
    x.sidesAgree o.dual = (x.sidesAgree o).mapError EvalError.dual := by
  unfold sidesAgree
  cases x.value with
  | absent => rfl
  | present v =>
    simp only [comparandValue_dual]
    cases x.comparandValue o <;> rfl

end Operands

/-- **An operator and its opposite differ in the verdict**, and in nothing but their names where
    they have none. -/
theorem Operator.apply_dual {o : Operator} (ho : o ≠ .contains) (x : Operands) :
    o.dual.apply x = opposite (o.apply x) := by
  cases o with
  | equals =>
    have hsides := x.sidesAgree_dual .equals
    rw [dual] at hsides
    rw [dual, apply, apply, hsides]
    cases x.sidesAgree .equals <;> rfl
  | notEquals =>
    have hsides := x.sidesAgree_dual .notEquals
    rw [dual] at hsides
    rw [dual, apply, apply, hsides]
    cases x.sidesAgree .notEquals with
    | error e => rfl
    | ok b => exact congrArg Except.ok (Bool.not_not b).symm
  | isNull => rfl
  | isNotNull => exact congrArg Except.ok (Bool.not_not _).symm
  | contains => exact absurd rfl ho

theorem Leaf.evaluate_dual {l : Leaf} (hl : l.operator ≠ .contains) (ctx : Context) :
    l.dual.evaluate ctx = opposite (l.evaluate ctx) :=
  Operator.apply_dual hl (l.operands ctx)

/-! ## 3. Trees -/

theorem Logic.decisive_dual (logic : Logic) : logic.dual.decisive = !logic.decisive := by
  cases logic <;> rfl

namespace Condition

theorem HasDual.child {logic : Logic} {cs : List Condition} {d : Option String}
    (h : (branch logic cs d).HasDual) : ∀ c ∈ cs, c.HasDual := by
  intro c hc
  constructor
  · intro l hl
    refine h.noContains l ?_
    rw [leaves, leavesAmong_eq_flatMap]
    exact List.mem_flatMap.mpr ⟨c, hc, hl⟩
  · intro t logic' d' hempty
    obtain ⟨f, hf⟩ := exists_hasAt_of_mem hc hempty logic d
    exact h.noEmptyBranch (f :: t) logic' d' hf

mutual

/-- **The dual of a tree comes to the opposite.** -/
theorem evaluate_dual (ctx : Context) : ∀ c : Condition, c.HasDual →
    c.dual.evaluate ctx = opposite (c.evaluate ctx)
  | .leaf l d, h => by
      rw [dual, evaluate, evaluate]
      exact Leaf.evaluate_dual (h.noContains l (List.mem_singleton_self l)) ctx
  | .branch logic [] d, h => absurd (.root _) (h.noEmptyBranch [] logic d)
  | .branch logic (c :: cs) d, h => by
      rw [evaluate_branch, ← walk_dual ctx logic (c :: cs) h.child]
      exact evaluate_branch logic.dual c.dual (dualEach cs) d

/-- The walks through the children and through their duals stop at the same child: what is decisive
    for one logic is the opposite of what is decisive for the other. -/
theorem walk_dual (ctx : Context) (logic : Logic) : ∀ cs : List Condition, (∀ c ∈ cs, c.HasDual) →
    walk ctx logic.dual (dualEach cs) = opposite (walk ctx logic cs)
  | [], _ => by
      rw [dualEach, walk, walk, logic.decisive_dual]
      rfl
  | c :: cs, h => by
      have hc := evaluate_dual ctx c (h c List.mem_cons_self)
      have hcs := walk_dual ctx logic cs fun c' hc' => h c' (List.mem_cons_of_mem _ hc')
      rw [dualEach]
      rcases walk_cases ctx logic c cs with ⟨e, hv, hw⟩ | ⟨hv, hw⟩ | ⟨hv, hw⟩
      · rw [hv] at hc
        rw [hw, walk_of_error hc]
        rfl
      · rw [hv, opposite, ← logic.decisive_dual] at hc
        rw [hw, walk_of_decisive hc, opposite, logic.decisive_dual]
      · rw [hv, opposite, ← logic.decisive_dual] at hc
        rw [hw, walk_of_other hc, hcs]

end

/-- **De Morgan's laws**: where a tree has a verdict, its dual has the opposite one; where it has an
    error, its dual has the same error, which names the opposite operator. -/
theorem de_morgan {c : Condition} (h : c.HasDual) (ctx : Context) :
    (∀ b, c.evaluate ctx = .ok b → c.dual.evaluate ctx = .ok !b) ∧
    ∀ e, c.evaluate ctx = .error e → c.dual.evaluate ctx = .error e.dual := by
  have hdual := evaluate_dual ctx c h
  constructor
  · intro b hb
    rw [hdual, hb, opposite]
  · intro e he
    rw [hdual, he, opposite]

/-- Open to the author of a text that is not published, and to editors. -/
def draftCondition : Condition :=
  .branch .or [
    .branch .and [
      .leaf ⟨⟨"subject.id"⟩, .equals, .path ⟨"resource.author"⟩, none⟩ none,
      .leaf ⟨⟨"resource.published_at"⟩, .isNull, .absent, none⟩ none] none,
    .leaf ⟨⟨"subject.role"⟩, .equals, .literal (.string "editor"), none⟩ none] none

/-- The claims of a subject without role, and the text of another. -/
def draftContext (id : String) : Context :=
  ⟨[("id", .string id)], [("author", .string "7")], [], [], [], []⟩

/-- The dual keeps out the author, whom the condition lets in before it comes to the role; for
    anyone else both meet the missing role. -/
theorem de_morgan_draft :
    draftCondition.HasDual ∧
    draftCondition.dual = .branch .and [
      .branch .or [
        .leaf ⟨⟨"subject.id"⟩, .notEquals, .path ⟨"resource.author"⟩, none⟩ none,
        .leaf ⟨⟨"resource.published_at"⟩, .isNotNull, .absent, none⟩ none] none,
      .leaf ⟨⟨"subject.role"⟩, .notEquals, .literal (.string "editor"), none⟩ none] none ∧
    draftCondition.evaluate (draftContext "7") = .ok true ∧
    draftCondition.dual.evaluate (draftContext "7") = .ok false ∧
    draftCondition.evaluate (draftContext "8") =
      .error (.missingAttribute ⟨"subject.role"⟩ .equals) ∧
    draftCondition.dual.evaluate (draftContext "8") =
      .error (.missingAttribute ⟨"subject.role"⟩ .notEquals) := by
  have h : draftCondition.HasDual := by
    refine ⟨by decide, fun t logic d hempty => ?_⟩
    have hmem : ⟨t, .branch logic [] d⟩ ∈ draftCondition.places := mem_places.mpr hempty
    simp [draftCondition, places, placesAt, placesAmong] at hmem
  have hverdict : draftCondition.evaluate (draftContext "7") = .ok true := by decide +kernel
  have herror : draftCondition.evaluate (draftContext "8") =
      .error (.missingAttribute ⟨"subject.role"⟩ .equals) := by
    decide +kernel
  exact ⟨h, rfl, hverdict, (de_morgan h _).1 _ hverdict, herror, (de_morgan h _).2 _ herror⟩

end Condition

end Gatehouse
