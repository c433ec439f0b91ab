import Gatehouse.Bundle
import Gatehouse.Decision

/-!
# Authorization

What this file fixes:

* `Bundle.decideRequest?`: the decision of a bundle on a request with the claims of its subject,
  unless the request names no endpoint;
* `Bundle.authorize`: what the caller is told, whatever the request;
* `Bundle.outline`: a bundle in one line.
-/

namespace Gatehouse.Bundle

/-- The wording for a request that names no endpoint. -/
def unknownEndpointMessage (r : Request) : String :=
  "endpoint not found: " ++ r.method.name ++ " " ++ r.path

/-- The decision on a request; none if it names no endpoint. -/
def decideRequest? (b : Bundle) (subject : Attributes) (r : Request) : Option Decision :=
  (b.endpoint? r.method r.path).map fun e =>
    e.decide (b.rulesFor e.id) (.ofRequest subject r)

/-- What the caller is told about a request. -/
def authorize (b : Bundle) (subject : Attributes) (r : Request) : Response :=
  match b.decideRequest? subject r with
  | some d => d.toResponse
  | none => .refusal (unknownEndpointMessage r)

/-- A bundle in one line. -/
def outline (b : Bundle) : String :=
  String.ofList
    ("PolicyEngine \x7b version: ".toList ++ Value.quoted b.version
      ++ ", num_endpoints: ".toList ++ Nat.toDigits 10 b.endpoints.length
      ++ ", num_policies: ".toList ++ Nat.toDigits 10 b.rules.length ++ " \x7d".toList)

end Gatehouse.Bundle
