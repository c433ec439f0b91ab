import Gatehouse.Proofs.Authorization

/-!
# What the caller is told of failures

What this file fixes, and what it shows about `Bundle.authorize`:

* `FailsAlike`: rules that differ in their conditions only, and only where these fail in a context;
  `FailuresReplaced`: bundles whose rules do;
* `authorize_of_failuresReplaced`: the caller is told the same by both;
* `ReasonGiven`: what a reason is made of, which is the rule that decided, or the flag of the
  endpoint, or the route of the request;
* `failures_not_disclosed`: the caller is told that some rule failed, but not how.
-/

namespace Gatehouse

/-! ## 1. Other failures -/

/-- The rules are the same, or both fail in the context and only their conditions differ. -/
inductive FailsAlike (ctx : Context) : Rule → Rule → Prop
  | same (r : Rule) : FailsAlike ctx r r
  | replaced {r : Rule} {c : Condition} {x y : EvalError} : r.Fails ctx x →
      c.evaluate ctx = .error y → FailsAlike ctx r { r with conditions := c }

/-- The rules have the same verdict, up to the error. -/
theorem verdictUpTo_of_failsAlike {ctx : Context} {r r' : Rule} (h : FailsAlike ctx r r') :
    VerdictUpTo (fun _ _ => True) ctx ctx r r' := by
  cases h with
  | same =>
      refine ⟨rfl, ?_⟩
      cases r.conditions.evaluate ctx with
      | ok b => exact .ok b
      | error x => exact .error trivial
  | replaced hr hc =>
      refine ⟨rfl, ?_⟩
      rw [show r.conditions.evaluate ctx = _ from hr, hc]
      exact .error trivial

theorem FailsAlike.endpointId {ctx : Context} {r r' : Rule} (h : FailsAlike ctx r r') :
    r.endpointId = r'.endpointId := by
  cases h <;> rfl

namespace Bundle

/-- The bundles are the same but for the conditions of rules that fail in the context. -/
structure FailuresReplaced (ctx : Context) (b b' : Bundle) : Prop where
  version : b'.version = b.version
  endpoints : b'.endpoints = b.endpoints
  rules : List.Forall₂ (FailsAlike ctx) b.rules b'.rules

/-- Decisions are the same up to the errors noted. -/
theorem decide_of_failuresReplaced {ctx : Context} {b b' : Bundle} (h : b.FailuresReplaced ctx b')
    (e : Endpoint) : DecisionUpTo (fun _ _ => True) (e.decide (b.rulesFor e.id) ctx)
      (e.decide (b'.rulesFor e.id) ctx) := by
  have hrules : List.Forall₂ (FailsAlike ctx) (b.rulesFor e.id) (b'.rulesFor e.id) := by
    refine List.rel_filter ?_ h.rules
    intro r r' hr
    simp only [hr.endpointId]
  exact Endpoint.decide_upTo (hrules.imp fun _ _ hr => verdictUpTo_of_failsAlike hr) e

/-- **The caller is told the same**, whatever the failures are. -/
theorem authorize_of_failuresReplaced {b b' : Bundle} {subject : Attributes} {q : Request}
    (h : b.FailuresReplaced (.ofRequest subject q) b') :
    b'.authorize subject q = b.authorize subject q := by
  have hfind : b'.endpoint? q.method q.path = b.endpoint? q.method q.path := by
    rw [endpoint?, endpoint?, h.endpoints]
  cases he : b.endpoint? q.method q.path with
  | none => rw [authorize_of_none he, authorize_of_none (hfind.trans he)]
  | some e =>
      rw [authorize_of_some he, authorize_of_some (hfind.trans he)]
      exact (decide_of_failuresReplaced h e).toResponse_eq.symm

end Bundle

/-! ## 2. Reasons -/

/-- The reason that a rule gives. -/
def ruleReason : Effect → String → String
  | .allow, name => "access granted by policy '" ++ name ++ "'"
  | .deny, name => "access denied by policy '" ++ name ++ "'"

/-- The reason that an endpoint gives by its flag. -/
def endpointReason (denyUnauthorized : Bool) : String :=
  if denyUnauthorized then "no allow policy matched the request"
  else "no policy matched; endpoint allows unmatched requests"

/-- The reason where there is no endpoint. -/
def routeReason (method : Method) (path : String) : String :=
  "endpoint not found: " ++ method.name ++ " " ++ path

namespace Decision

/-- A rule that decides is named, and gives its reason. -/
theorem ofRule_reason (r : Rule) (errors : List RuleFailure) :
    (ofRule r errors).matchedRule = some r.ref ∧
      (ofRule r errors).reason = ruleReason r.effect r.name := by
  cases h : r.effect with
  | allow => rw [ofRule_of_allow h]; exact ⟨rfl, rfl⟩
  | deny => rw [ofRule_of_deny h]; exact ⟨rfl, rfl⟩

theorem reason_ofEndpoint (e : Endpoint) (errors : List RuleFailure) :
    (ofEndpoint e errors).reason = endpointReason e.denyUnauthorized := by
  unfold ofEndpoint endpointReason
  split <;> rfl

end Decision

/-- A decision gives the reason of the rule that made it, or of the endpoint. -/
theorem Endpoint.reason_decide (e : Endpoint) (rules : List Rule) (ctx : Context) :
    (∃ r ∈ rules, r.Matches ctx ∧ (e.decide rules ctx).matchedRule = some r.ref ∧
      (e.decide rules ctx).reason = ruleReason r.effect r.name) ∨
    (e.decide rules ctx).matchedRule = none ∧
      (e.decide rules ctx).reason = endpointReason e.denyUnauthorized := by
  rcases e.decide_cases rules ctx with ⟨r, hr, _, hm, hd⟩ | ⟨_, r, hr, _, hm, hd⟩ | ⟨_, hd⟩
  · rw [hd]
    exact Or.inl ⟨r, hr, hm, Decision.ofRule_reason r _⟩
  · rw [hd]
    exact Or.inl ⟨r, hr, hm, Decision.ofRule_reason r _⟩
  · rw [hd]
    exact Or.inr ⟨Decision.matchedRule_ofEndpoint e _, Decision.reason_ofEndpoint e _⟩

namespace Bundle

/-- What the reason for an answer is made of. -/
inductive ReasonGiven (b : Bundle) (subject : Attributes) (q : Request) : String → Prop
  | rule {e : Endpoint} {r : Rule} {d : Decision} : b.FirstRegistered q.method q.path e →
      r ∈ b.rulesFor e.id → r.Matches (.ofRequest subject q) →
      b.decideRequest? subject q = some d → d.matchedRule = some r.ref →
      ReasonGiven b subject q (ruleReason r.effect r.name)
  | endpoint {e : Endpoint} {d : Decision} : b.FirstRegistered q.method q.path e →
      b.decideRequest? subject q = some d → d.matchedRule = none →
      ReasonGiven b subject q (endpointReason e.denyUnauthorized)
  | route : b.decideRequest? subject q = none →
      (∀ e ∈ b.endpoints, ¬ (e.method = q.method ∧ e.path = q.path)) →
      ReasonGiven b subject q (routeReason q.method q.path)

/-- **Where a reason is from**: the rule that decided, the endpoint, or the request. -/
theorem reasonGiven_authorize (b : Bundle) (subject : Attributes) (q : Request) :
    b.ReasonGiven subject q (b.authorize subject q).reason := by
  cases he : b.endpoint? q.method q.path with
  | none =>
      rw [authorize_of_none he]
      exact .route (decideRequest?_of_none he) (endpoint?_eq_none_iff.mp he)
  | some e =>
      have hfirst := endpoint?_eq_some_iff.mp he
      have hd : b.decideRequest? subject q =
          some (e.decide (b.rulesFor e.id) (.ofRequest subject q)) := decideRequest?_of_some he
      have hreason : (b.authorize subject q).reason =
          (e.decide (b.rulesFor e.id) (.ofRequest subject q)).reason := by
        rw [authorize_of_some he]
        rfl
      rw [hreason]
      rcases e.reason_decide (b.rulesFor e.id) (.ofRequest subject q) with
        ⟨r, hr, hm, hmatched, hrule⟩ | ⟨hmatched, hendpoint⟩
      · rw [hrule]
        exact .rule hfirst hr hm hd hmatched
      · rw [hendpoint]
        exact .endpoint hfirst hd hmatched

/-- The caller is told of failures if the decision has noted some, and only then. -/
theorem error_authorize (b : Bundle) (subject : Attributes) (q : Request) :
    (∃ d, b.decideRequest? subject q = some d ∧ d.errors ≠ [] ∧
      (b.authorize subject q).error = some evaluationErrorMarker) ∨
    (∀ d, b.decideRequest? subject q = some d → d.errors = []) ∧
      (b.authorize subject q).error = none := by
  unfold authorize
  cases hd : b.decideRequest? subject q with
  | none => exact Or.inr ⟨nofun, rfl⟩
  | some d =>
      by_cases hnil : d.errors = []
      · refine Or.inr ⟨fun d' h => ?_, Decision.error_toResponse_of_nil hnil⟩
        rw [← Option.some.inj h, hnil]
      · exact Or.inl ⟨d, rfl, hnil, Decision.error_toResponse hnil⟩

/-- **Failures are not disclosed**: whatever makes rules fail, the caller is told the same. It is
    told by the marker that some rule failed, and a reason that is made of the name and the effect
    of the rule that decided, of the flag of the endpoint, or of what the request itself names. -/
theorem failures_not_disclosed (b : Bundle) (subject : Attributes) (q : Request) :
    (∀ b', b.FailuresReplaced (.ofRequest subject q) b' →
      b'.authorize subject q = b.authorize subject q) ∧
    ((∃ d, b.decideRequest? subject q = some d ∧ d.errors ≠ [] ∧
        (b.authorize subject q).error = some evaluationErrorMarker) ∨
      (∀ d, b.decideRequest? subject q = some d → d.errors = []) ∧
        (b.authorize subject q).error = none) ∧
    b.ReasonGiven subject q (b.authorize subject q).reason :=
  ⟨fun _ => authorize_of_failuresReplaced, error_authorize b subject q,
    reasonGiven_authorize b subject q⟩

/-! ## A rule that fails in two ways -/

/-- Denies suspended clients, by the given path to their status. -/
def suspendedClients (status : Path) : Rule where
  id := .zero
  name := "suspended clients"
  description := none
  effect := .deny
  endpointId := .zero
  conditions := .leaf ⟨status, .equals, .literal (.string "suspended"), none⟩ none

/-- One endpoint with one rule, which reads the status of the subject. -/
def statusBundle (status : Path) : Bundle :=
  ⟨"1.0", [⟨.zero, .get, "/clients", false, none⟩], [suspendedClients status]⟩

/-- Asks for the clients. -/
def getClients : Request := ⟨.get, "/clients", none, none, none, none, none⟩

/-- Nothing is known about the subject. Which attribute is missing shows in what is noted, and not
    in what the caller is told. -/
theorem failures_not_disclosed_status :
    (statusBundle ⟨"subject.status"⟩).FailuresReplaced (.ofRequest [] getClients)
      (statusBundle ⟨"subject.secret"⟩) ∧
    (statusBundle ⟨"subject.secret"⟩).decideRequest? [] getClients ≠
      (statusBundle ⟨"subject.status"⟩).decideRequest? [] getClients ∧
    (statusBundle ⟨"subject.secret"⟩).authorize [] getClients =
      (statusBundle ⟨"subject.status"⟩).authorize [] getClients := by
  have hreplaced : (statusBundle ⟨"subject.status"⟩).FailuresReplaced (.ofRequest [] getClients)
      (statusBundle ⟨"subject.secret"⟩) := by
    refine ⟨rfl, rfl, .cons ?_ .nil⟩
    exact .replaced (r := suspendedClients ⟨"subject.status"⟩)
      (c := (suspendedClients ⟨"subject.secret"⟩).conditions)
      (x := .missingAttribute ⟨"subject.status"⟩ .equals)
      (y := .missingAttribute ⟨"subject.secret"⟩ .equals) rfl rfl
  exact ⟨hreplaced, by decide +kernel,
    (failures_not_disclosed (statusBundle ⟨"subject.status"⟩) [] getClients).1 _ hreplaced⟩

end Bundle

end Gatehouse
