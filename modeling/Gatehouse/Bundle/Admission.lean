import Gatehouse.Bundle

/-!
# The admission of bundles

What this file fixes:

* `BundleFault`: what a bundle can be refused for, and its wording;
* `Bundle.fault?`: the first fault of a bundle. The version comes first, then the endpoints in
  order, the route of each before its identity, then the rules in order: identity, endpoint, name
  on that endpoint, length of the name, tree. Each item is compared with those before it.
-/

namespace Gatehouse

/-- Why a bundle is refused. -/
inductive BundleFault where
  | unsupportedVersion (version : String)
  | duplicateRoute (e : Endpoint)
  | duplicateEndpointId (id : Uuid)
  | duplicateRuleId (id : Uuid)
  | unknownEndpoint (r : Rule)
  | duplicateRuleName (r : Rule) (e : Endpoint)
  | invalidRule (r : Rule) (cause : RuleError)
  deriving DecidableEq, Repr

/-- The version of bundles that is supported. -/
def supportedVersion : String := "1.0"

namespace BundleFault

/-- The wording of a fault. -/
def message : BundleFault → String
  | .unsupportedVersion v =>
      "unsupported policy version '" ++ v ++ "'; only '" ++ supportedVersion ++ "' is supported"
  | .duplicateRoute e => "duplicate endpoint: " ++ e.route
  | .duplicateEndpointId id => "duplicate endpoint id: " ++ id.text
  | .duplicateRuleId id => "duplicate policy id: " ++ id.text
  | .unknownEndpoint r =>
      "policy '" ++ r.name ++ "' references unknown endpoint id " ++ r.endpointId.text
  | .duplicateRuleName r e =>
      "duplicate policy name '" ++ r.name ++ "' for endpoint " ++ e.route
  | .invalidRule r _ => "policy '" ++ r.name ++ "' (" ++ r.id.text ++ ") is invalid"

/-- The wordings of a fault and of what it stems from, the fault first. -/
def chain (f : BundleFault) : List String :=
  match f with
  | .invalidRule _ cause => f.message :: cause.chain
  | _ => [f.message]

end BundleFault

namespace Bundle

/-- The fault of an endpoint that comes after the endpoints `before`. -/
def endpointFault? (before : List Endpoint) (e : Endpoint) : Option BundleFault :=
  if before.any fun x => x.method == e.method && x.path == e.path then some (.duplicateRoute e)
  else if before.any fun x => x.id == e.id then some (.duplicateEndpointId e.id)
  else none

/-- The first fault of endpoints that come after the endpoints `before`. -/
def endpointsFault? (before : List Endpoint) : List Endpoint → Option BundleFault
  | [] => none
  | e :: es =>
      match endpointFault? before e with
      | some f => some f
      | none => endpointsFault? (before ++ [e]) es

/-- The fault of a rule that comes after the rules `before`. -/
def ruleFault? (limits : Limits) (endpoints : List Endpoint) (before : List Rule) (r : Rule) :
    Option BundleFault :=
  if before.any fun x => x.id == r.id then some (.duplicateRuleId r.id)
  else match endpoints.find? fun e => e.id == r.endpointId with
    | none => some (.unknownEndpoint r)
    | some e =>
        if before.any fun x => x.endpointId == r.endpointId && x.name == r.name then
          some (.duplicateRuleName r e)
        else match r.check limits with
          | .error cause => some (.invalidRule r cause)
          | .ok () => none

/-- The first fault of rules that come after the rules `before`. -/
def rulesFault? (limits : Limits) (endpoints : List Endpoint) (before : List Rule) :
    List Rule → Option BundleFault
  | [] => none
  | r :: rs =>
      match ruleFault? limits endpoints before r with
      | some f => some f
      | none => rulesFault? limits endpoints (before ++ [r]) rs

/-- The first fault of a bundle. -/
def fault? (limits : Limits) (b : Bundle) : Option BundleFault :=
  if b.version ≠ supportedVersion then some (.unsupportedVersion b.version)
  else match endpointsFault? [] b.endpoints with
    | some f => some f
    | none => rulesFault? limits b.endpoints [] b.rules

/-- Accepts a bundle without fault. -/
def accepted (limits : Limits) (b : Bundle) : Except BundleFault Bundle :=
  match b.fault? limits with
  | some f => .error f
  | none => .ok b

end Bundle

end Gatehouse
