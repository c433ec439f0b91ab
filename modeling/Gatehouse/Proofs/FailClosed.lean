import Gatehouse.Proofs.Decision

/-!
# Decisions after evaluation errors

What this file shows: a rule that cannot be evaluated never makes a request allowed on an endpoint
that denies unmatched requests.

* `denied_of_failure`: with a failing rule and no matching rule that allows, the request is denied
  unless no rule matches at all and the endpoint allows unmatched requests;
* `allowed_despite_failure`: that one case exists, so the flag of the endpoint cannot be left out.
-/

namespace Gatehouse

namespace Endpoint

/-- An endpoint that makes the decision notes every rule that fails. -/
theorem failure_mem_errors {e : Endpoint} {rules : List Rule} {ctx : Context}
    (hno : ∀ r ∈ rules, ¬ r.Matches ctx) {r : Rule} (hr : r ∈ rules) {x : EvalError}
    (hx : r.Fails ctx x) : ⟨r.ref, x⟩ ∈ (e.decide rules ctx).errors := by
  rw [errors_decide, firstMatch_of_no_match fun r hr => hno r (mem_triedOrder.mp hr)]
  exact List.mem_filterMap.mpr
    ⟨r, mem_triedOrder.mpr hr, Rule.failure?_eq_some_iff.mpr ⟨x, hx, rfl⟩⟩

end Endpoint

/-- **Fail closed**: if a rule fails and no rule that allows matches, the request is denied exactly
    when the endpoint denies unmatched requests or a rule that denies matches. If it is allowed
    nevertheless, the endpoint has allowed it: no rule is named, every failure is noted, and the
    caller is told so. -/
theorem denied_of_failure (e : Endpoint) (rules : List Rule) (ctx : Context)
    (hfail : ∃ r ∈ rules, ∃ x, r.Fails ctx x)
    (hallow : ∀ r ∈ rules, r.effect = .allow → ¬ r.Matches ctx) :
    ((e.decide rules ctx).outcome = .denied ↔
      e.denyUnauthorized = true ∨ ∃ r ∈ rules, r.effect = .deny ∧ r.Matches ctx) ∧
    ((e.decide rules ctx).outcome = .allowed →
      (e.decide rules ctx).matchedRule = none ∧
        (∀ r ∈ rules, ∀ x, r.Fails ctx x → ⟨r.ref, x⟩ ∈ (e.decide rules ctx).errors) ∧
        (e.decide rules ctx).toResponse.error = some evaluationErrorMarker) := by
  rcases e.decide_cases rules ctx with ⟨r, hr, he, hm, hd⟩ | ⟨_, r, hr, he, hm, _⟩ | ⟨hno, hd⟩
  · have hout : (e.decide rules ctx).outcome = .denied := by rw [hd, Decision.ofRule_of_deny he]
    refine ⟨⟨fun _ => Or.inr ⟨r, hr, he, hm⟩, fun _ => hout⟩, fun h => ?_⟩
    rw [hout] at h
    cases h
  · exact absurd hm (hallow r hr he)
  · have hnoted : ∀ r ∈ rules, ∀ x, r.Fails ctx x → ⟨r.ref, x⟩ ∈ (e.decide rules ctx).errors :=
      fun r hr x hx => Endpoint.failure_mem_errors hno hr hx
    refine ⟨?_, fun _ => ⟨by rw [hd, Decision.matchedRule_ofEndpoint], hnoted, ?_⟩⟩
    · rw [hd, Decision.ofEndpoint_denied_iff]
      constructor
      · exact Or.inl
      · rintro (hu | ⟨r, hr, _, hm⟩)
        · exact hu
        · exact absurd hm (hno r hr)
    · obtain ⟨r, hr, x, hx⟩ := hfail
      exact Decision.error_toResponse (List.ne_nil_of_mem (hnoted r hr x hx))

/-! ## An endpoint that lets a failing rule pass -/

/-- Denies a subject of another tenant. -/
def tenantMismatch : Rule where
  id := .zero
  name := "tenant mismatch"
  description := none
  effect := .deny
  endpointId := .zero
  conditions := .leaf ⟨⟨"subject.tenant"⟩, .notEquals, .path ⟨"resource.tenant"⟩, none⟩ none

/-- Allows requests that no rule decides. -/
def publicEndpoint : Endpoint := ⟨.zero, .get, "/clients", false, none⟩

/-- Nothing is known about the request. -/
def blankContext : Context := ⟨[], [], [], [], [], []⟩

theorem tenantMismatch_fails :
    tenantMismatch.Fails blankContext (.missingAttribute ⟨"subject.tenant"⟩ .notEquals) := rfl

/-- The rule fails, so that the endpoint decides, and it tells the caller of the failure. -/
theorem denied_of_failure_public :
    (∃ r ∈ [tenantMismatch], ∃ x, r.Fails blankContext x) ∧
    (∀ r ∈ [tenantMismatch], r.effect = .allow → ¬ r.Matches blankContext) ∧
    (publicEndpoint.decide [tenantMismatch] blankContext).toResponse.error =
      some evaluationErrorMarker := by
  have hfail : ∃ r ∈ [tenantMismatch], ∃ x, r.Fails blankContext x :=
    ⟨tenantMismatch, List.mem_singleton_self _, _, tenantMismatch_fails⟩
  have hallow : ∀ r ∈ [tenantMismatch], r.effect = .allow → ¬ r.Matches blankContext := by
    intro r hr he
    rw [List.mem_singleton.mp hr] at he
    cases he
  exact ⟨hfail, hallow, ((denied_of_failure publicEndpoint _ _ hfail hallow).2 rfl).2.2⟩

/-- **The flag of the endpoint matters**: a failing rule that denies, on an endpoint that allows
    unmatched requests, leaves the request allowed though no rule allows it. -/
theorem allowed_despite_failure :
    ¬ ∀ (e : Endpoint) (rules : List Rule) (ctx : Context),
      (∃ r ∈ rules, ∃ x, r.Fails ctx x) →
      (∀ r ∈ rules, r.effect = .allow → ¬ r.Matches ctx) →
      (e.decide rules ctx).outcome = .denied := by
  intro h
  have hdenied : (publicEndpoint.decide [tenantMismatch] blankContext).outcome = .denied := by
    refine h publicEndpoint [tenantMismatch] blankContext
      ⟨tenantMismatch, List.mem_singleton_self _, _, tenantMismatch_fails⟩ fun r hr he => ?_
    rw [List.mem_singleton.mp hr] at he
    cases he
  have hallowed : (publicEndpoint.decide [tenantMismatch] blankContext).outcome = .allowed := rfl
  rw [hallowed] at hdenied
  cases hdenied

end Gatehouse
