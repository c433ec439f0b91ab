import Gatehouse.Proofs.Decision

/-!
# Explaining agrees with deciding

What this file shows about `Condition.explain` and `Rule.report`:

* `map_isMatched_explainAt`: the walk that takes notes goes the same way as the one that takes none,
  at any depth: it meets the same error, or it ends with the same outcome;
* `lines_of_explainAt`: notes are left exactly where a tree failed;
* `matchedRule_decide_one`, `errors_decide_one`: what a decision names and notes if there is only
  one rule;
* `explanation_agrees_with_decision`: the report on a rule tells what a decision on that rule alone
  would name and note.
-/

namespace Gatehouse

/-! ## 1. The walk that takes notes -/

namespace Explanation

/-- An explanation under a head line has matched if it had before. -/
@[simp] theorem isMatched_under (head : String) (x : Explanation) :
    (Condition.under head x).isMatched = x.isMatched := by
  cases x <;> rfl

/-- A failure under a head line has lines. -/
theorem lines_under (head : String) (x : Explanation) :
    (Condition.under head x).lines = [] ↔ (Condition.under head x).isMatched = true := by
  cases x with
  | matched => exact ⟨fun _ => rfl, fun _ => rfl⟩
  | failed ls =>
      exact ⟨fun h => absurd h (List.cons_ne_nil _ _), fun h => absurd h Bool.false_ne_true⟩

/-- The notes about a head line do not touch the outcome. -/
theorem map_isMatched_under (head : String) (x : Except EvalError Explanation) :
    (x.map (Condition.under head)).map isMatched = x.map isMatched := by
  cases x with
  | error e => rfl
  | ok x => exact congrArg Except.ok (isMatched_under head x)

end Explanation

namespace Condition

variable {ctx : Context}

mutual

/-- **The walk that takes notes has the outcome of the walk that takes none.** -/
theorem map_isMatched_explainAt : ∀ (c : Condition) (depth : Nat),
    (explainAt ctx depth c).map Explanation.isMatched = c.evaluate ctx
  | .leaf l d, depth => by
      rw [explainAt, evaluate]
      cases l.evaluate ctx with
      | error e => rfl
      | ok b => cases b <;> rfl
  | .branch _ [] _, _ => by
      rw [explainAt, evaluate]
      rfl
  | .branch .and (c :: cs) d, depth => by
      rw [explainAt, evaluate, Explanation.map_isMatched_under,
        map_isMatched_explainAll (c :: cs) (depth + 1)]
  | .branch .or (c :: cs) d, depth => by
      rw [explainAt, evaluate, Explanation.map_isMatched_under,
        map_isMatched_explainAny (c :: cs) (depth + 1)]

theorem map_isMatched_explainAll : ∀ (cs : List Condition) (depth : Nat),
    (explainAll ctx depth cs).map Explanation.isMatched = evaluateAll ctx cs
  | [], _ => by
      rw [explainAll, evaluateAll]
      rfl
  | c :: cs, depth => by
      have hc := map_isMatched_explainAt c depth
      have hcs := map_isMatched_explainAll cs depth
      rw [explainAll, evaluateAll, ← hc]
      cases explainAt ctx depth c with
      | error e => rfl
      | ok x =>
          cases x with
          | matched => exact hcs
          | failed ls => rfl

theorem map_isMatched_explainAny : ∀ (cs : List Condition) (depth : Nat),
    (explainAny ctx depth cs).map Explanation.isMatched = evaluateAny ctx cs
  | [], _ => by
      rw [explainAny, evaluateAny]
      rfl
  | c :: cs, depth => by
      have hc := map_isMatched_explainAt c depth
      have hcs := map_isMatched_explainAny cs depth
      rw [explainAny, evaluateAny, ← hc]
      cases explainAt ctx depth c with
      | error e => rfl
      | ok x =>
          cases x with
          | matched => rfl
          | failed ls =>
              -- the notes about the children after this one are put behind its own
              simp only [Except.map, Explanation.isMatched] at hcs ⊢
              rw [← hcs]
              cases explainAny ctx depth cs with
              | error e => rfl
              | ok y => cases y <;> rfl

end

/-- **Notes are left exactly where a tree failed.** -/
theorem lines_of_explainAt {c : Condition} {depth : Nat} {x : Explanation}
    (h : explainAt ctx depth c = .ok x) : x.lines = [] ↔ x.isMatched = true := by
  have hunder : ∀ (head : String) (y : Except EvalError Explanation),
      y.map (under head) = .ok x → (x.lines = [] ↔ x.isMatched = true) := by
    intro head y hy
    cases y with
    | error e => cases hy
    | ok y =>
        cases hy
        exact Explanation.lines_under head y
  match c with
  | .leaf l d =>
      rw [explainAt] at h
      cases hl : l.evaluate ctx with
      | error e => rw [hl] at h; cases h
      | ok b =>
          rw [hl] at h
          cases b <;> cases h <;> simp [Explanation.lines, Explanation.isMatched]
  | .branch _ [] _ =>
      rw [explainAt] at h
      cases h
      simp [Explanation.lines, Explanation.isMatched]
  | .branch .and (c :: cs) d =>
      rw [explainAt] at h
      exact hunder _ _ h
  | .branch .or (c :: cs) d =>
      rw [explainAt] at h
      exact hunder _ _ h

/-- Explaining a tree meets an error exactly if evaluating it does. -/
theorem explain_eq_error_iff {c : Condition} {e : EvalError} :
    c.explain ctx = .error e ↔ c.evaluate ctx = .error e := by
  rw [← map_isMatched_explainAt c 0, explain]
  cases explainAt ctx 0 c with
  | error e' => simp [Except.map]
  | ok x => simp [Except.map]

/-- A tree that is explained has the outcome that the explanation tells. -/
theorem evaluate_of_explain {c : Condition} {x : Explanation} (h : c.explain ctx = .ok x) :
    c.evaluate ctx = .ok x.isMatched := by
  rw [← map_isMatched_explainAt c 0]
  rw [explain] at h
  rw [h]
  rfl

end Condition

/-! ## 2. Decisions on one rule -/

namespace Endpoint

/-- One rule is tried, whatever its effect. -/
theorem triedOrder_one (r : Rule) : triedOrder [r] = [r] := by
  unfold triedOrder
  cases h : r.effect with
  | allow => simp [h]
  | deny => simp [h]

/-- **A decision on one rule names that rule if it matches**, and no rule otherwise. -/
theorem matchedRule_decide_one (e : Endpoint) (r : Rule) (ctx : Context) :
    (e.decide [r] ctx).matchedRule = if r.matchesB ctx then some r.ref else none := by
  rw [Endpoint.decide, triedOrder_one, firstMatch, firstMatch, Rule.matchesB]
  cases r.conditions.evaluate ctx with
  | error x => exact Decision.matchedRule_ofEndpoint e _
  | ok b =>
      cases b with
      | false => exact Decision.matchedRule_ofEndpoint e _
      | true => exact Decision.matchedRule_ofRule r _

/-- A decision on one rule notes its failure, if it fails. -/
theorem errors_decide_one (e : Endpoint) (r : Rule) (ctx : Context) :
    (e.decide [r] ctx).errors = (r.failure? ctx).toList := by
  rw [errors_decide, triedOrder_one, firstMatch, firstMatch, Rule.failure?]
  cases r.conditions.evaluate ctx with
  | error x => rfl
  | ok b => cases b <;> rfl

end Endpoint

/-! ## 3. Reports on single rules -/

namespace Rule

/-- A rule is reported as matching if its conditions hold. -/
theorem matched_report (r : Rule) (ctx : Context) : (r.report ctx).matched = r.matchesB ctx := by
  rw [report, matchesB, ← Condition.map_isMatched_explainAt r.conditions 0, Condition.explain]
  cases Condition.explainAt ctx 0 r.conditions with
  | error x => rfl
  | ok x => cases x <;> rfl

/-- The error that is reported is the one that a decision would note. -/
theorem error_report (r : Rule) (ctx : Context) :
    (r.report ctx).error = (r.failure? ctx).map fun f => f.error.message := by
  rw [report, failure?, ← Condition.map_isMatched_explainAt r.conditions 0, Condition.explain]
  cases Condition.explainAt ctx 0 r.conditions with
  | error x => rfl
  | ok x => cases x <;> rfl

end Rule

/-- **Explaining agrees with deciding.** A tree is explained with an error exactly if it evaluates
    to that error; otherwise the explanation tells the outcome, and it has lines exactly if the tree
    failed. So the report on a rule says that it matches exactly if a decision on this rule alone
    names it, and it has the error that this decision notes, if there is one. -/
theorem explanation_agrees_with_decision :
    (∀ (c : Condition) (ctx : Context),
      (∀ x : EvalError, c.explain ctx = .error x ↔ c.evaluate ctx = .error x) ∧
      ∀ x : Explanation, c.explain ctx = .ok x →
        c.evaluate ctx = .ok x.isMatched ∧ (x.lines = [] ↔ x.isMatched = true)) ∧
    ∀ (r : Rule) (e : Endpoint) (ctx : Context),
      ((r.report ctx).matched = true ↔ (e.decide [r] ctx).matchedRule = some r.ref) ∧
      (r.report ctx).error.toList = (e.decide [r] ctx).errors.map fun f => f.error.message := by
  refine ⟨fun c ctx => ⟨fun x => Condition.explain_eq_error_iff, fun x h => ?_⟩,
    fun r e ctx => ⟨?_, ?_⟩⟩
  · exact ⟨Condition.evaluate_of_explain h, Condition.lines_of_explainAt h⟩
  · rw [r.matched_report, e.matchedRule_decide_one]
    cases r.matchesB ctx <;> simp
  · rw [r.error_report, e.errors_decide_one]
    cases r.failure? ctx <;> rfl

/-- Holds for staff, and for owners who belong to no company. -/
def staffOrOwner : Condition :=
  .branch .or
    [.leaf ⟨⟨"subject.roles[*]"⟩, .contains, .literal (.string "staff"), none⟩ (some "staff"),
      .branch .and
        [.leaf ⟨⟨"subject.id"⟩, .equals, .path ⟨"resource.owner"⟩, none⟩ none,
          .leaf ⟨⟨"subject.company"⟩, .isNull, .absent, none⟩ none]
        none]
    none

/-- An owner who works for a company and is no staff. -/
def employedOwner : Context where
  subject := [("company", .string "acme"), ("id", .string "C1"), ("roles", .array [])]
  resource := [("owner", .string "C1")]
  path := []
  body := []
  query := []
  header := []

/-- Of the inner branch the first check held and leaves no line; the second is told. -/
theorem explanation_agrees_with_decision_owner :
    staffOrOwner.explain employedOwner = .ok (.failed
      ["OR group did not match",
        "  subject.roles[*] Contains failed ('staff'): value [], expected to contain \"staff\"",
        "  AND group did not match",
        "    subject.company IsNull failed: value \"acme\", expected to be null or absent"]) ∧
    staffOrOwner.evaluate employedOwner = .ok false := by
  have h : staffOrOwner.explain employedOwner = .ok (.failed
      ["OR group did not match",
        "  subject.roles[*] Contains failed ('staff'): value [], expected to contain \"staff\"",
        "  AND group did not match",
        "    subject.company IsNull failed: value \"acme\", expected to be null or absent"]) := by
    decide +kernel
  exact ⟨h, ((explanation_agrees_with_decision.1 staffOrOwner employedOwner).2 _ h).1⟩

end Gatehouse
