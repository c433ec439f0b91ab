import Gatehouse.Condition.Evaluation
import Gatehouse.Request
import Gatehouse.Rule

/-!
# Decisions

What this file fixes:

* `Endpoint.decide`: the decision on a request to an endpoint. The rules that deny are tried before
  those that allow, each kind in the order given, and the first that matches decides; if none
  does, the endpoint decides. A rule that cannot be evaluated does not match and is noted;
* `Decision.toResponse`: what the caller is told. That a rule could not be evaluated is told by a
  fixed marker only;
* `Rule.report`: one rule by itself, with the conditions that failed.
-/

namespace Gatehouse

/-! ## 1. What a decision says -/

/-- What rules are named by in decisions. -/
structure RuleRef where
  id : Uuid
  name : String
  effect : Effect
  deriving DecidableEq, Repr

/-- The reference to a rule. -/
def Rule.ref (r : Rule) : RuleRef := ⟨r.id, r.name, r.effect⟩

/-- The record of a reference. -/
def RuleRef.toValue (r : RuleRef) : Value :=
  .record [
    ("id", some (.string r.id.text)),
    ("name", some (.string r.name)),
    ("effect", some (.string r.effect.name))]

/-- A rule that could not be evaluated. -/
structure RuleFailure where
  rule : RuleRef
  error : EvalError
  deriving DecidableEq, Repr

/-- The outcome of a request. -/
inductive Outcome where
  | allowed
  | denied
  deriving DecidableEq, Repr

/-- The name of an outcome. -/
def Outcome.name : Outcome → String
  | .allowed => "Allowed"
  | .denied => "Denied"

/-- The decision on a request: the rule that made it, if it was not the endpoint, and the rules
    that could not be evaluated before. -/
structure Decision where
  outcome : Outcome
  matchedRule : Option RuleRef
  reason : String
  errors : List RuleFailure
  deriving DecidableEq, Repr

namespace Decision

/-- The request is allowed. -/
def isAllowed (d : Decision) : Bool := d.outcome == .allowed

/-- The decision that a matching rule makes. -/
def ofRule (r : Rule) (errors : List RuleFailure) : Decision :=
  match r.effect with
  | .allow => ⟨.allowed, some r.ref, "access granted by policy '" ++ r.name ++ "'", errors⟩
  | .deny => ⟨.denied, some r.ref, "access denied by policy '" ++ r.name ++ "'", errors⟩

/-- The decision that an endpoint makes where no rule matches. -/
def ofEndpoint (e : Endpoint) (errors : List RuleFailure) : Decision :=
  if e.denyUnauthorized then ⟨.denied, none, "no allow policy matched the request", errors⟩
  else ⟨.allowed, none, "no policy matched; endpoint allows unmatched requests", errors⟩

end Decision

/-! ## 2. Deciding -/

/-- The rules in the order in which they are tried. -/
def triedOrder (rules : List Rule) : List Rule :=
  (rules.filter fun r => r.effect == .deny) ++ rules.filter fun r => r.effect != .deny

/-- The first rule that matches, if one does, and the failures of those before it. -/
def firstMatch (ctx : Context) : List Rule → Option Rule × List RuleFailure
  | [] => (none, [])
  | r :: rs =>
      match r.conditions.evaluate ctx with
      | .ok true => (some r, [])
      | .ok false => firstMatch ctx rs
      | .error e =>
          let later := firstMatch ctx rs
          (later.1, ⟨r.ref, e⟩ :: later.2)

/-- The decision on a request to an endpoint with the given rules. -/
def Endpoint.decide (endpoint : Endpoint) (rules : List Rule) (ctx : Context) : Decision :=
  match firstMatch ctx (triedOrder rules) with
  | (some r, errors) => .ofRule r errors
  | (none, errors) => .ofEndpoint endpoint errors

/-! ## 3. Responses -/

/-- What the caller is told. -/
structure Response where
  allowed : Bool
  reason : String
  ruleId : Option Uuid
  ruleName : Option String
  effect : Option Effect
  error : Option String
  deriving DecidableEq, Repr

namespace Response

/-- The fields of a response, in order. -/
def fieldNames : List String :=
  ["allowed", "reason", "policy_id", "policy_name", "effect", "error"]

/-- The response in a document. -/
def read? (d : Doc) : Option Response :=
  (d.fields? fieldNames).bind fun fs => do
    let allowed ← fs.required "allowed" Doc.bool?
    let reason ← fs.required "reason" Doc.string?
    let ruleId ← fs.optional "policy_id" Doc.uuid?
    let ruleName ← fs.optional "policy_name" Doc.string?
    let effect ← fs.optional "effect" Effect.read?
    let error ← fs.optional "error" Doc.string?
    some ⟨allowed, reason, ruleId, ruleName, effect, error⟩

/-- A refusal for a reason that is no rule. -/
def refusal (reason : String) : Response := ⟨false, reason, none, none, none, none⟩

/-- The record of a response. -/
def toValue (r : Response) : Value :=
  .record [
    ("allowed", some (.bool r.allowed)),
    ("reason", some (.string r.reason)),
    ("policy_id", r.ruleId.map fun u => .string u.text),
    ("policy_name", r.ruleName.map .string),
    ("effect", r.effect.map fun e => .string e.name),
    ("error", r.error.map .string)]

end Response

/-- The marker for rules that could not be evaluated. -/
def evaluationErrorMarker : String := "policy evaluation error"

/-- What the caller is told about a decision. -/
def Decision.toResponse (d : Decision) : Response :=
  ⟨d.isAllowed, d.reason, d.matchedRule.map RuleRef.id, d.matchedRule.map RuleRef.name,
    d.matchedRule.map RuleRef.effect,
    if d.errors.isEmpty then none else some evaluationErrorMarker⟩

/-! ## 4. Single rules -/

/-- The outcome of one rule by itself. -/
structure RuleReport where
  rule : RuleRef
  matched : Bool
  reason : String
  error : Option String
  failures : List String
  deriving DecidableEq, Repr

/-- The record of a report. -/
def RuleReport.toValue (r : RuleReport) : Value :=
  .record [
    ("rule", some r.rule.toValue),
    ("matched", some (.bool r.matched)),
    ("reason", some (.string r.reason)),
    ("error", r.error.map .string),
    ("failures", if r.failures.isEmpty then none
      else some (.array (r.failures.map .string)))]

/-- One rule by itself. -/
def Rule.report (ctx : Context) (r : Rule) : RuleReport :=
  match r.conditions.explain ctx with
  | .ok .matched => ⟨r.ref, true, "policy conditions met", none, []⟩
  | .ok (.failed lines) => ⟨r.ref, false, (Explanation.failed lines).reason, none, lines⟩
  | .error e =>
      ⟨r.ref, false, evaluationErrorMarker ++ ": " ++ e.message, some e.message, []⟩

end Gatehouse
