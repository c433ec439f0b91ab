import Gatehouse.Decision
import Mathlib.Data.List.Forall2
import Mathlib.Data.List.TakeWhile

/-!
# How rules decide

What this file shows about `Endpoint.decide`, for any rules in any order:

* `firstMatch_fst`, `firstMatch_snd`: the scan yields the first rule that matches and notes the
  failures of the rules before it, in order;
* `firstMatch_upTo`, `decide_upTo`: nothing of a rule matters but its name, its effect and its
  outcome, and of an error only that there is one; `toResponse_eq`: so no error reaches the caller;
* `decide_cases`: a matching rule that denies decides, else a matching rule that allows, else the
  endpoint. Every other statement about outcomes is read off these three cases;
* `isAllowed_decide_iff`: when a request is allowed;
* `mem_errors_decide`: what is noted is the failure of one of the rules.
-/

namespace Gatehouse

/-! ## 1. Verdicts of single rules -/

namespace Rule

/-- The conditions of the rule hold in the context. -/
def Matches (ctx : Context) (r : Rule) : Prop := r.conditions.evaluate ctx = .ok true

/-- The conditions of the rule cannot be decided in the context, for the given reason. -/
def Fails (ctx : Context) (r : Rule) (e : EvalError) : Prop := r.conditions.evaluate ctx = .error e

/-- Decidable test whether the conditions hold. -/
def matchesB (ctx : Context) (r : Rule) : Bool :=
  match r.conditions.evaluate ctx with
  | .ok b => b
  | .error _ => false

/-- What a decision notes about the rule. -/
def failure? (ctx : Context) (r : Rule) : Option RuleFailure :=
  match r.conditions.evaluate ctx with
  | .ok _ => none
  | .error e => some ⟨r.ref, e⟩

theorem matchesB_iff (ctx : Context) (r : Rule) : r.matchesB ctx = true ↔ r.Matches ctx := by
  unfold matchesB Matches
  cases h : r.conditions.evaluate ctx with
  | ok b => simp
  | error e => simp

instance (ctx : Context) (r : Rule) : Decidable (r.Matches ctx) :=
  decidable_of_iff _ (r.matchesB_iff ctx)

theorem matchesB_eq_false_iff (ctx : Context) (r : Rule) :
    r.matchesB ctx = false ↔ ¬ r.Matches ctx := by
  rw [← matchesB_iff, Bool.not_eq_true]

theorem failure?_eq_some_iff {ctx : Context} {r : Rule} {f : RuleFailure} :
    r.failure? ctx = some f ↔ ∃ e, r.Fails ctx e ∧ f = ⟨r.ref, e⟩ := by
  unfold failure? Fails
  cases h : r.conditions.evaluate ctx with
  | ok b => simp
  | error e =>
    constructor
    · intro hf
      exact ⟨e, rfl, (Option.some.inj hf).symm⟩
    · rintro ⟨e', he, rfl⟩
      rw [Except.error.inj he]

end Rule

/-- There are two effects. -/
theorem Rule.effect_bne_deny (r : Rule) : (r.effect != .deny) = (r.effect == .allow) := by
  cases r.effect <;> rfl

/-! ## 2. The scan -/

/-- The scan yields the first rule that matches. -/
theorem firstMatch_fst (ctx : Context) :
    ∀ rs : List Rule, (firstMatch ctx rs).1 = rs.find? (Rule.matchesB ctx)
  | [] => rfl
  | r :: rs => by
      have ih := firstMatch_fst ctx rs
      unfold firstMatch
      rw [List.find?_cons]
      cases h : r.conditions.evaluate ctx with
      | error e =>
          have hb : r.matchesB ctx = false := by rw [Rule.matchesB, h]
          rw [hb]
          exact ih
      | ok b =>
          have hb : r.matchesB ctx = b := by rw [Rule.matchesB, h]
          rw [hb]
          cases b with
          | true => rfl
          | false => exact ih

/-- The scan notes the failures of the rules before the first that matches. -/
theorem firstMatch_snd (ctx : Context) : ∀ rs : List Rule, (firstMatch ctx rs).2 =
      (rs.takeWhile fun r => !r.matchesB ctx).filterMap (Rule.failure? ctx)
  | [] => rfl
  | r :: rs => by
      have ih := firstMatch_snd ctx rs
      unfold firstMatch
      rw [List.takeWhile_cons]
      cases h : r.conditions.evaluate ctx with
      | error e =>
          have hb : r.matchesB ctx = false := by rw [Rule.matchesB, h]
          have hf : r.failure? ctx = some ⟨r.ref, e⟩ := by rw [Rule.failure?, h]
          rw [hb, Bool.not_false, if_pos rfl, List.filterMap_cons_some hf, ← ih]
      | ok b =>
          have hb : r.matchesB ctx = b := by rw [Rule.matchesB, h]
          have hf : r.failure? ctx = none := by rw [Rule.failure?, h]
          rw [hb]
          cases b with
          | true => rfl
          | false =>
              rw [Bool.not_false, if_pos rfl, List.filterMap_cons_none hf, ← ih]

/-- Where no rule matches, the scan notes the failures of all of them. -/
theorem firstMatch_of_no_match {ctx : Context} {rs : List Rule} (h : ∀ r ∈ rs, ¬ r.Matches ctx) :
    firstMatch ctx rs = (none, rs.filterMap (Rule.failure? ctx)) := by
  have hb : ∀ r ∈ rs, r.matchesB ctx = false :=
    fun r hr => (r.matchesB_eq_false_iff ctx).mpr (h r hr)
  refine Prod.ext ?_ ?_
  · rw [firstMatch_fst, List.find?_eq_none]
    intro r hr
    rw [hb r hr]
    exact Bool.false_ne_true
  · rw [firstMatch_snd, List.takeWhile_eq_self_iff.mpr]
    intro r hr
    rw [hb r hr, Bool.not_false]

/-- The two outcomes are the same, but for the errors: these are related. -/
inductive OutcomeUpTo (E : EvalError → EvalError → Prop) :
    Except EvalError Bool → Except EvalError Bool → Prop
  | ok (b : Bool) : OutcomeUpTo E (.ok b) (.ok b)
  | error {x y : EvalError} : E x y → OutcomeUpTo E (.error x) (.error y)

/-- The two rules have the same name and effect, and the one says in the first context what the
    other says in the second, up to errors. -/
structure VerdictUpTo (E : EvalError → EvalError → Prop) (c₁ c₂ : Context) (r₁ r₂ : Rule) :
    Prop where
  ref : r₁.ref = r₂.ref
  evaluate : OutcomeUpTo E (r₁.conditions.evaluate c₁) (r₂.conditions.evaluate c₂)

/-- The two rules have the same name and effect, and the one says in the first context what the
    other says in the second. -/
structure SameVerdict (c₁ c₂ : Context) (r₁ r₂ : Rule) : Prop where
  ref : r₁.ref = r₂.ref
  evaluate : r₁.conditions.evaluate c₁ = r₂.conditions.evaluate c₂

theorem SameVerdict.upTo {c₁ c₂ : Context} {r₁ r₂ : Rule} (h : SameVerdict c₁ c₂ r₁ r₂) :
    VerdictUpTo Eq c₁ c₂ r₁ r₂ := by
  refine ⟨h.ref, ?_⟩
  rw [h.evaluate]
  cases r₂.conditions.evaluate c₂ with
  | ok b => exact .ok b
  | error x => exact .error rfl

/-- The same rule is noted, with related errors. -/
structure FailureUpTo (E : EvalError → EvalError → Prop) (f₁ f₂ : RuleFailure) : Prop where
  rule : f₁.rule = f₂.rule
  error : E f₁.error f₂.error

/-- **The scan depends on the names and the outcomes of the rules only**; it notes their errors
    without looking into them. -/
theorem firstMatch_upTo {E : EvalError → EvalError → Prop} {c₁ c₂ : Context} {rs₁ rs₂ : List Rule}
    (h : List.Forall₂ (VerdictUpTo E c₁ c₂) rs₁ rs₂) :
    (firstMatch c₁ rs₁).1.map Rule.ref = (firstMatch c₂ rs₂).1.map Rule.ref ∧
      List.Forall₂ (FailureUpTo E) (firstMatch c₁ rs₁).2 (firstMatch c₂ rs₂).2 := by
  induction h with
  | nil => exact ⟨rfl, .nil⟩
  | @cons r₁ r₂ rs₁ rs₂ hr _ ih =>
      have hout := hr.evaluate
      rw [firstMatch, firstMatch]
      generalize r₁.conditions.evaluate c₁ = x₁ at hout ⊢
      generalize r₂.conditions.evaluate c₂ = x₂ at hout ⊢
      cases hout with
      | error hE => exact ⟨ih.1, .cons ⟨hr.ref, hE⟩ ih.2⟩
      | ok b =>
          cases b with
          | true => exact ⟨congrArg some hr.ref, .nil⟩
          | false => exact ih

/-- All rules are tried, and no others. -/
theorem mem_triedOrder {r : Rule} {rules : List Rule} : r ∈ triedOrder rules ↔ r ∈ rules := by
  unfold triedOrder
  rw [List.mem_append, List.mem_filter, List.mem_filter]
  constructor
  · rintro (⟨h, _⟩ | ⟨h, _⟩) <;> exact h
  · intro h
    cases he : r.effect with
    | deny => exact Or.inl ⟨h, by rfl⟩
    | allow => exact Or.inr ⟨h, by rfl⟩

/-- Rules that are related, effects and all, are tried in the same order. -/
theorem forall₂_triedOrder {R : Rule → Rule → Prop}
    (heffect : ∀ ⦃r₁ r₂⦄, R r₁ r₂ → r₁.effect = r₂.effect) {rules₁ rules₂ : List Rule}
    (h : List.Forall₂ R rules₁ rules₂) :
    List.Forall₂ R (triedOrder rules₁) (triedOrder rules₂) := by
  refine List.rel_append (List.rel_filter ?_ h) (List.rel_filter ?_ h)
  all_goals
    intro r₁ r₂ hr
    simp only [heffect hr]

/-! ## 3. Outcomes -/

/-- The decisions say the same, up to the errors noted. -/
structure DecisionUpTo (E : EvalError → EvalError → Prop) (d₁ d₂ : Decision) : Prop where
  outcome : d₁.outcome = d₂.outcome
  matchedRule : d₁.matchedRule = d₂.matchedRule
  reason : d₁.reason = d₂.reason
  errors : List.Forall₂ (FailureUpTo E) d₁.errors d₂.errors

/-- Decisions that note the same errors and say the same are the same. -/
theorem DecisionUpTo.eq {d₁ d₂ : Decision} (h : DecisionUpTo Eq d₁ d₂) : d₁ = d₂ := by
  have hfailure : ∀ f₁ f₂ : RuleFailure, FailureUpTo Eq f₁ f₂ → f₁ = f₂ := by
    rintro ⟨rule₁, error₁⟩ ⟨rule₂, error₂⟩ ⟨rfl, rfl⟩
    rfl
  have herrors : d₁.errors = d₂.errors :=
    List.forall₂_eq_eq_eq ▸ h.errors.imp fun {f₁ f₂} => hfailure f₁ f₂
  obtain ⟨outcome, matchedRule, reason, errors⟩ := d₁
  rw [Decision.mk.injEq]
  exact ⟨h.outcome, h.matchedRule, h.reason, herrors⟩

namespace Decision

theorem isAllowed_iff (d : Decision) : d.isAllowed = true ↔ d.outcome = .allowed := by
  unfold isAllowed
  exact beq_iff_eq

theorem outcome_eq_denied_iff {d : Decision} : d.outcome = .denied ↔ ¬ d.isAllowed = true := by
  rw [isAllowed_iff]
  cases d.outcome <;> simp

theorem ofRule_of_deny {r : Rule} (h : r.effect = .deny) (errors : List RuleFailure) :
    ofRule r errors =
      ⟨.denied, some r.ref, "access denied by policy '" ++ r.name ++ "'", errors⟩ := by
  rw [ofRule, h]

theorem ofRule_of_allow {r : Rule} (h : r.effect = .allow) (errors : List RuleFailure) :
    ofRule r errors =
      ⟨.allowed, some r.ref, "access granted by policy '" ++ r.name ++ "'", errors⟩ := by
  rw [ofRule, h]

@[simp] theorem errors_ofRule (r : Rule) (errors : List RuleFailure) :
    (ofRule r errors).errors = errors := by
  cases h : r.effect with
  | allow => rw [ofRule_of_allow h]
  | deny => rw [ofRule_of_deny h]

@[simp] theorem matchedRule_ofRule (r : Rule) (errors : List RuleFailure) :
    (ofRule r errors).matchedRule = some r.ref := by
  cases h : r.effect with
  | allow => rw [ofRule_of_allow h]
  | deny => rw [ofRule_of_deny h]

@[simp] theorem errors_ofEndpoint (e : Endpoint) (errors : List RuleFailure) :
    (ofEndpoint e errors).errors = errors := by
  unfold ofEndpoint
  split <;> rfl

@[simp] theorem matchedRule_ofEndpoint (e : Endpoint) (errors : List RuleFailure) :
    (ofEndpoint e errors).matchedRule = none := by
  unfold ofEndpoint
  split <;> rfl

/-- A rule decides by its name and its effect. -/
theorem ofRule_upTo {E : EvalError → EvalError → Prop} {r₁ r₂ : Rule} (h : r₁.ref = r₂.ref)
    {errors₁ errors₂ : List RuleFailure} (herrors : List.Forall₂ (FailureUpTo E) errors₁ errors₂) :
    DecisionUpTo E (ofRule r₁ errors₁) (ofRule r₂ errors₂) := by
  have hname : r₁.name = r₂.name := congrArg RuleRef.name h
  have heffect : r₁.effect = r₂.effect := congrArg RuleRef.effect h
  rw [ofRule, ofRule, h, hname, heffect]
  cases r₂.effect with
  | allow => exact ⟨rfl, rfl, rfl, herrors⟩
  | deny => exact ⟨rfl, rfl, rfl, herrors⟩

/-- An endpoint decides by its flag. -/
theorem ofEndpoint_upTo {E : EvalError → EvalError → Prop} (e : Endpoint)
    {errors₁ errors₂ : List RuleFailure} (herrors : List.Forall₂ (FailureUpTo E) errors₁ errors₂) :
    DecisionUpTo E (ofEndpoint e errors₁) (ofEndpoint e errors₂) := by
  rw [ofEndpoint, ofEndpoint]
  cases e.denyUnauthorized with
  | true => exact ⟨rfl, rfl, rfl, herrors⟩
  | false => exact ⟨rfl, rfl, rfl, herrors⟩

theorem ofEndpoint_denied_iff {e : Endpoint} {errors : List RuleFailure} :
    (ofEndpoint e errors).outcome = .denied ↔ e.denyUnauthorized = true := by
  unfold ofEndpoint
  cases e.denyUnauthorized with
  | true => exact ⟨fun _ => rfl, fun _ => rfl⟩
  | false => exact ⟨nofun, nofun⟩

theorem ofEndpoint_allowed_iff {e : Endpoint} {errors : List RuleFailure} :
    (ofEndpoint e errors).outcome = .allowed ↔ e.denyUnauthorized = false := by
  unfold ofEndpoint
  cases e.denyUnauthorized with
  | true => exact ⟨nofun, nofun⟩
  | false => exact ⟨fun _ => rfl, fun _ => rfl⟩

end Decision

namespace Endpoint

/-- What is noted is what the scan notes. -/
theorem errors_decide (e : Endpoint) (rules : List Rule) (ctx : Context) :
    (e.decide rules ctx).errors = (firstMatch ctx (triedOrder rules)).2 := by
  unfold Endpoint.decide
  split
  · rename_i r errors h
    rw [h, Decision.errors_ofRule]
  · rename_i errors h
    rw [h, Decision.errors_ofEndpoint]

/-- **A decision depends on the names, the effects and the outcomes of the rules only**; what it
    says is the same up to the errors noted. -/
theorem decide_upTo {E : EvalError → EvalError → Prop} {c₁ c₂ : Context}
    {rules₁ rules₂ : List Rule} (h : List.Forall₂ (VerdictUpTo E c₁ c₂) rules₁ rules₂)
    (e : Endpoint) : DecisionUpTo E (e.decide rules₁ c₁) (e.decide rules₂ c₂) := by
  have heffect : ∀ ⦃r₁ r₂⦄, VerdictUpTo E c₁ c₂ r₁ r₂ → r₁.effect = r₂.effect :=
    fun _ _ hr => congrArg RuleRef.effect hr.ref
  obtain ⟨hmatch, herrors⟩ := firstMatch_upTo (forall₂_triedOrder heffect h)
  unfold Endpoint.decide
  generalize firstMatch c₁ (triedOrder rules₁) = x at hmatch herrors ⊢
  generalize firstMatch c₂ (triedOrder rules₂) = y at hmatch herrors ⊢
  obtain ⟨m₁, errors₁⟩ := x
  obtain ⟨m₂, errors₂⟩ := y
  match m₁, m₂ with
  | none, none => exact Decision.ofEndpoint_upTo e herrors
  | some r₁, some r₂ => exact Decision.ofRule_upTo (Option.some.inj hmatch) herrors

/-- A decision depends on the names, the effects and the outcomes of the rules only. -/
theorem decide_of_sameVerdict {c₁ c₂ : Context} {rules₁ rules₂ : List Rule}
    (h : List.Forall₂ (SameVerdict c₁ c₂) rules₁ rules₂) (e : Endpoint) :
    e.decide rules₁ c₁ = e.decide rules₂ c₂ :=
  DecisionUpTo.eq (decide_upTo (h.imp fun _ _ hr => hr.upTo) e)

/-- A decision depends on the outcomes of the rules only. -/
theorem decide_congr {c₁ c₂ : Context} {rules : List Rule}
    (h : ∀ r ∈ rules, r.conditions.evaluate c₁ = r.conditions.evaluate c₂) (e : Endpoint) :
    e.decide rules c₁ = e.decide rules c₂ :=
  decide_of_sameVerdict (List.forall₂_same.mpr fun r hr => ⟨rfl, h r hr⟩) e

/-- **Who decides**: a matching rule that denies; else, if no such rule matches, a matching rule
    that allows; else, if none matches at all, the endpoint, and then every failure is noted. -/
theorem decide_cases (e : Endpoint) (rules : List Rule) (ctx : Context) :
    (∃ r ∈ rules, r.effect = .deny ∧ r.Matches ctx ∧
      e.decide rules ctx = .ofRule r (firstMatch ctx (triedOrder rules)).2) ∨
    ((∀ r ∈ rules, r.effect = .deny → ¬ r.Matches ctx) ∧
      ∃ r ∈ rules, r.effect = .allow ∧ r.Matches ctx ∧
        e.decide rules ctx = .ofRule r (firstMatch ctx (triedOrder rules)).2) ∨
    ((∀ r ∈ rules, ¬ r.Matches ctx) ∧
      e.decide rules ctx = .ofEndpoint e ((triedOrder rules).filterMap (Rule.failure? ctx))) := by
  have hfst := firstMatch_fst ctx (triedOrder rules)
  have hsplit : (triedOrder rules).find? (Rule.matchesB ctx) =
      ((rules.filter fun r => r.effect == .deny).find? (Rule.matchesB ctx)).or
        ((rules.filter fun r => r.effect != .deny).find? (Rule.matchesB ctx)) :=
    List.find?_append
  rw [hsplit] at hfst
  cases hd : (rules.filter fun r => r.effect == .deny).find? (Rule.matchesB ctx) with
  | some r =>
      left
      have hm := List.mem_filter.mp (List.mem_of_find?_eq_some hd)
      rw [hd, Option.some_or] at hfst
      refine ⟨r, hm.1, beq_iff_eq.mp hm.2, (r.matchesB_iff ctx).mp (List.find?_some hd), ?_⟩
      rw [Endpoint.decide, ← Prod.eta (firstMatch ctx (triedOrder rules)), hfst]
  | none =>
      have hdeny : ∀ r ∈ rules, r.effect = .deny → ¬ r.Matches ctx := fun r hr he hmatch =>
        List.find?_eq_none.mp hd r (List.mem_filter.mpr ⟨hr, beq_iff_eq.mpr he⟩)
          ((r.matchesB_iff ctx).mpr hmatch)
      right
      rw [hd, Option.none_or] at hfst
      cases ha : (rules.filter fun r => r.effect != .deny).find? (Rule.matchesB ctx) with
      | some r =>
          left
          have hm := List.mem_filter.mp (List.mem_of_find?_eq_some ha)
          have he : r.effect = .allow := by
            cases h : r.effect with
            | allow => rfl
            | deny => exact absurd h (bne_iff_ne.mp hm.2)
          rw [ha] at hfst
          refine ⟨hdeny, r, hm.1, he, (r.matchesB_iff ctx).mp (List.find?_some ha), ?_⟩
          rw [Endpoint.decide, ← Prod.eta (firstMatch ctx (triedOrder rules)), hfst]
      | none =>
          right
          have hno : ∀ r ∈ rules, ¬ r.Matches ctx := by
            intro r hr hmatch
            by_cases he : r.effect = .deny
            · exact hdeny r hr he hmatch
            · exact List.find?_eq_none.mp ha r (List.mem_filter.mpr ⟨hr, bne_iff_ne.mpr he⟩)
                ((r.matchesB_iff ctx).mpr hmatch)
          refine ⟨hno, ?_⟩
          rw [Endpoint.decide, firstMatch_of_no_match fun r hr => hno r (mem_triedOrder.mp hr)]

/-- **When a request is allowed**: no matching rule denies, and either a matching rule allows or
    the endpoint allows requests that no rule decides. -/
theorem isAllowed_decide_iff (e : Endpoint) (rules : List Rule) (ctx : Context) :
    (e.decide rules ctx).isAllowed = true ↔
      (∀ r ∈ rules, r.effect = .deny → ¬ r.Matches ctx) ∧
        ((∃ r ∈ rules, r.effect = .allow ∧ r.Matches ctx) ∨ e.denyUnauthorized = false) := by
  rw [Decision.isAllowed_iff]
  rcases decide_cases e rules ctx with ⟨r, hr, he, hm, hd⟩ | ⟨hdeny, r, hr, he, hm, hd⟩ | ⟨hno, hd⟩
  · rw [hd, Decision.ofRule_of_deny he]
    constructor
    · intro h
      cases h
    · intro h
      exact absurd hm (h.1 r hr he)
  · rw [hd, Decision.ofRule_of_allow he]
    exact ⟨fun _ => ⟨hdeny, Or.inl ⟨r, hr, he, hm⟩⟩, fun _ => rfl⟩
  · rw [hd, Decision.ofEndpoint_allowed_iff]
    constructor
    · intro hu
      exact ⟨fun r hr _ => hno r hr, Or.inr hu⟩
    · rintro ⟨_, ⟨r, hr, _, hm⟩ | hu⟩
      · exact absurd hm (hno r hr)
      · exact hu

/-- What is noted is the failure of one of the rules. -/
theorem mem_errors_decide {e : Endpoint} {rules : List Rule} {ctx : Context} {f : RuleFailure}
    (h : f ∈ (e.decide rules ctx).errors) :
    ∃ r ∈ rules, ∃ x, r.Fails ctx x ∧ f = ⟨r.ref, x⟩ := by
  rw [errors_decide, firstMatch_snd] at h
  obtain ⟨r, hr, hf⟩ := List.mem_filterMap.mp h
  have hmem : r ∈ triedOrder rules := (List.takeWhile_sublist _).mem hr
  exact ⟨r, mem_triedOrder.mp hmem, Rule.failure?_eq_some_iff.mp hf⟩

end Endpoint

/-! ## 4. Responses -/

/-- The caller is told by the marker that something was noted. -/
theorem Decision.error_toResponse {d : Decision} (h : d.errors ≠ []) :
    d.toResponse.error = some evaluationErrorMarker := by
  unfold Decision.toResponse
  cases he : d.errors with
  | nil => exact absurd he h
  | cons f fs => rfl

/-- Where nothing was noted, the caller is told of no error. -/
theorem Decision.error_toResponse_of_nil {d : Decision} (h : d.errors = []) :
    d.toResponse.error = none := by
  rw [Decision.toResponse, h]
  rfl

/-- **The caller is not told which errors were noted**, only whether any were. -/
theorem DecisionUpTo.toResponse_eq {E : EvalError → EvalError → Prop} {d₁ d₂ : Decision}
    (h : DecisionUpTo E d₁ d₂) : d₁.toResponse = d₂.toResponse := by
  have hempty : d₁.errors.isEmpty = d₂.errors.isEmpty := by
    have herrors := h.errors
    generalize d₁.errors = es₁ at herrors ⊢
    generalize d₂.errors = es₂ at herrors ⊢
    cases herrors with
    | nil => rfl
    | cons _ _ => rfl
  unfold Decision.toResponse Decision.isAllowed
  rw [h.outcome, h.matchedRule, h.reason, hempty]

end Gatehouse
