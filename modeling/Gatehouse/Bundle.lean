import Gatehouse.Rule
import Gatehouse.Endpoint

/-!
# Bundles

What this file fixes:

* `Bundle`: endpoints and the rules attached to them, as one document has them;
* `Bundle.endpoint?`, `Bundle.rulesFor`: the endpoint that a request names, and its rules;
* `Bundle.findRule`: the rule that a key names, by identity or else by name. A name that several
  rules share names none of them.
-/

namespace Gatehouse

/-- Endpoints and rules. -/
structure Bundle where
  version : String
  endpoints : List Endpoint
  rules : List Rule
  deriving DecidableEq, Repr

namespace Bundle

/-! ## 1. Documents -/

/-- The fields of a bundle, in order. -/
def fieldNames : List String := ["version", "endpoints", "policies"]

open Doc.Scope in
/-- What is looked at in a document of a bundle. -/
def scope : Doc.Scope :=
  .fields (refine (refine (ofNames fieldNames) "endpoints" (.items Endpoint.scope)) "policies"
    (.items Rule.scope))

/-- The bundle in a document, not yet checked. -/
def read? (d : Doc) : Option Bundle :=
  (d.fields? fieldNames).bind fun fs => do
    let version ← fs.required "version" Doc.string?
    let endpoints ← fs.defaulted "endpoints" [] (Doc.list? Endpoint.read?)
    let rules ← fs.defaulted "policies" [] (Doc.list? Rule.read?)
    some ⟨version, endpoints, rules⟩

/-- The record of a bundle. -/
def toValue (b : Bundle) : Value :=
  .record [
    ("version", some (.string b.version)),
    ("endpoints", some (.array (b.endpoints.map Endpoint.toValue))),
    ("policies", some (.array (b.rules.map Rule.toValue)))]

/-! ## 2. Look-ups -/

/-- The first endpoint registered for a method and a path. -/
def endpoint? (b : Bundle) (method : Method) (path : String) : Option Endpoint :=
  b.endpoints.find? fun e => e.method == method && e.path == path

/-- The rules attached to an endpoint, in order. -/
def rulesFor (b : Bundle) (endpointId : Uuid) : List Rule :=
  b.rules.filter fun r => r.endpointId == endpointId

/-- Why a key names no rule. -/
inductive FindError where
  | noMatch (key : String)
  | ambiguous (key : String) (ids : List Uuid)
  deriving DecidableEq, Repr

/-- The wording of a failed search. -/
def FindError.message : FindError → String
  | .noMatch key => "no policy with id or name '" ++ key ++ "'"
  | .ambiguous key ids =>
      "policy name '" ++ key ++ "' is ambiguous; use one of the ids: "
        ++ Text.joinWith ", " (ids.map Uuid.text)

/-- The rule that a key names: the one of that identity, in the printed spelling, or else the
    only one of that name. -/
def findRule (b : Bundle) (key : String) : Except FindError Rule :=
  match b.rules.find? fun r => r.id.text == key with
  | some r => .ok r
  | none =>
      match b.rules.filter fun r => r.name == key with
      | [] => .error (.noMatch key)
      | [r] => .ok r
      | many => .error (.ambiguous key (many.map Rule.id))

end Bundle

end Gatehouse
