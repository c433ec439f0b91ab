import Gatehouse.Proofs.Condition.Walk
import Mathlib.Data.List.Basic

/-!
# Trees and their leaves

What this file fixes, and what it shows about evaluation:

* `Condition.leaves`: the checks of a tree, from left to right; `Condition.paths`: the attributes
  that they mention;
* `evaluate_error_leaf`: an error of a tree is the error of one of its leaves;
* `evaluate_congr`, `explain_congr`: two contexts that give every leaf the same operands give the
  tree the same outcome and the same explanation.
-/

namespace Gatehouse

/-! ## 1. Leaves and paths -/

/-- The attributes that a leaf mentions: the one it checks, and its comparand if that is one. -/
def Leaf.paths (l : Leaf) : List Path := l.path :: l.comparand.path?.toList

namespace Condition

mutual

/-- The leaves of a tree, from left to right. -/
def leaves : Condition → List Leaf
  | .leaf l _ => [l]
  | .branch _ children _ => leavesAmong children

/-- The leaves of several trees, one after the other. -/
def leavesAmong : List Condition → List Leaf
  | [] => []
  | c :: cs => leaves c ++ leavesAmong cs

end

theorem leavesAmong_eq_flatMap : ∀ cs : List Condition, leavesAmong cs = cs.flatMap leaves
  | [] => by rw [leavesAmong, List.flatMap_nil]
  | c :: cs => by rw [leavesAmong, leavesAmong_eq_flatMap cs, List.flatMap_cons]

/-- The attributes that a tree mentions. -/
def paths (c : Condition) : List Path := c.leaves.flatMap Leaf.paths

theorem mem_paths {c : Condition} {l : Leaf} (hl : l ∈ c.leaves) {p : Path} (hp : p ∈ l.paths) :
    p ∈ c.paths :=
  List.mem_flatMap.mpr ⟨l, hl, hp⟩

end Condition

/-! ## 2. Errors come from leaves -/

namespace Condition

variable {ctx : Context} {e : EvalError}

mutual

/-- **An error of a tree is the error of one of its leaves.** -/
theorem evaluate_error_leaf : ∀ c : Condition, c.evaluate ctx = .error e →
    ∃ l ∈ c.leaves, l.evaluate ctx = .error e
  | .leaf l _, h => ⟨l, List.mem_singleton_self l, h⟩
  | .branch _ [] _, h => by rw [evaluate] at h; cases h
  | .branch _ (c :: cs) _, h => by
      rw [evaluate_branch] at h
      exact walk_error_leaf (c :: cs) h

theorem walk_error_leaf {logic : Logic} : ∀ cs : List Condition, walk ctx logic cs = .error e →
    ∃ l ∈ leavesAmong cs, l.evaluate ctx = .error e
  | [], h => by rw [walk] at h; cases h
  | c :: cs, h => by
      rcases walk_cases ctx logic c cs with ⟨e', hc, hw⟩ | ⟨_, hw⟩ | ⟨_, hw⟩
      · rw [hw] at h
        cases h
        obtain ⟨l, hl, hx⟩ := evaluate_error_leaf c hc
        exact ⟨l, List.mem_append_left _ hl, hx⟩
      · rw [hw] at h
        cases h
      · rw [hw] at h
        obtain ⟨l, hl, hx⟩ := walk_error_leaf cs h
        exact ⟨l, List.mem_append_right _ hl, hx⟩

end

end Condition

/-! ## 3. Contexts that look the same to every leaf -/

namespace Leaf

variable {c₁ c₂ : Context} {l : Leaf}

/-- A leaf reads a context only by resolving the paths that it mentions. -/
theorem operands_congr (h : ∀ p ∈ l.paths, c₁.resolve p = c₂.resolve p) :
    l.operands c₁ = l.operands c₂ := by
  have hpath : c₁.resolve l.path = c₂.resolve l.path := h l.path List.mem_cons_self
  have hcomp : l.comparand.resolve c₁ = l.comparand.resolve c₂ := by
    cases hc : l.comparand with
    | absent => rfl
    | literal v => rfl
    | path p =>
        have hp : p ∈ l.paths := by
          rw [paths, hc]
          exact List.mem_cons_of_mem _ (List.mem_singleton_self p)
        rw [Comparand.resolve, Comparand.resolve, h p hp]
  rw [operands, operands, hpath, hcomp]

theorem evaluate_congr (h : l.operands c₁ = l.operands c₂) : l.evaluate c₁ = l.evaluate c₂ := by
  rw [evaluate, evaluate, h]

/-- The line about a failed leaf shows nothing of a context but the operands. -/
theorem failureLine_congr (h : l.operands c₁ = l.operands c₂) (depth : Nat) (label : Label) :
    l.failureLine c₁ depth label = l.failureLine c₂ depth label := by
  have hpath : c₁.resolve l.path = c₂.resolve l.path := congrArg Operands.value h
  have hcomp : l.comparand.resolve c₁ = l.comparand.resolve c₂ := congrArg Operands.comparand h
  have htext : l.comparandText c₁ = l.comparandText c₂ := by
    unfold comparandText
    cases l.operator.arity with
    | unary => rfl
    | binary =>
        cases hc : l.comparand with
        | absent => rfl
        | literal v => rfl
        | path p =>
            rw [hc] at hcomp
            have hp : c₁.resolve p = c₂.resolve p := Option.some.inj hcomp
            simp only [hp]
  rw [failureLine, failureLine, hpath, htext]

end Leaf

namespace Condition

variable {c₁ c₂ : Context}

mutual

theorem evaluate_congr : ∀ c : Condition, (∀ l ∈ c.leaves, l.operands c₁ = l.operands c₂) →
    c.evaluate c₁ = c.evaluate c₂
  | .leaf l _, h => by
      rw [evaluate, evaluate, Leaf.evaluate_congr (h l (List.mem_singleton_self l))]
  | .branch _ [] _, _ => by rw [evaluate, evaluate]
  | .branch logic (c :: cs) _, h => by
      rw [evaluate_branch, evaluate_branch]
      exact walk_congr logic (c :: cs) h

theorem walk_congr (logic : Logic) : ∀ cs : List Condition,
    (∀ l ∈ leavesAmong cs, l.operands c₁ = l.operands c₂) → walk c₁ logic cs = walk c₂ logic cs
  | [], _ => rfl
  | c :: cs, h => by
      rw [walk, walk, evaluate_congr c fun l hl => h l (List.mem_append_left _ hl),
        walk_congr logic cs fun l hl => h l (List.mem_append_right _ hl)]

end

mutual

theorem explainAt_congr : ∀ (c : Condition) (depth : Nat),
    (∀ l ∈ c.leaves, l.operands c₁ = l.operands c₂) →
    explainAt c₁ depth c = explainAt c₂ depth c
  | .leaf l d, depth, h => by
      have hl := h l (List.mem_singleton_self l)
      rw [explainAt, explainAt, Leaf.evaluate_congr hl, Leaf.failureLine_congr hl]
  | .branch _ [] _, _, _ => by rw [explainAt, explainAt]
  | .branch .and (c :: cs) _, depth, h => by
      rw [explainAt, explainAt, explainAll_congr (c :: cs) (depth + 1) h]
  | .branch .or (c :: cs) _, depth, h => by
      rw [explainAt, explainAt, explainAny_congr (c :: cs) (depth + 1) h]

theorem explainAll_congr : ∀ (cs : List Condition) (depth : Nat),
    (∀ l ∈ leavesAmong cs, l.operands c₁ = l.operands c₂) →
    explainAll c₁ depth cs = explainAll c₂ depth cs
  | [], _, _ => by rw [explainAll, explainAll]
  | c :: cs, depth, h => by
      rw [explainAll, explainAll,
        explainAt_congr c depth fun l hl => h l (List.mem_append_left _ hl),
        explainAll_congr cs depth fun l hl => h l (List.mem_append_right _ hl)]

theorem explainAny_congr : ∀ (cs : List Condition) (depth : Nat),
    (∀ l ∈ leavesAmong cs, l.operands c₁ = l.operands c₂) →
    explainAny c₁ depth cs = explainAny c₂ depth cs
  | [], _, _ => by rw [explainAny, explainAny]
  | c :: cs, depth, h => by
      rw [explainAny, explainAny,
        explainAt_congr c depth fun l hl => h l (List.mem_append_left _ hl),
        explainAny_congr cs depth fun l hl => h l (List.mem_append_right _ hl)]

end

theorem explain_congr {c : Condition} (h : ∀ l ∈ c.leaves, l.operands c₁ = l.operands c₂) :
    c.explain c₁ = c.explain c₂ :=
  explainAt_congr c 0 h

end Condition

end Gatehouse
