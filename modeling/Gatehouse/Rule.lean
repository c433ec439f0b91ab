import Gatehouse.Condition.Validity
import Gatehouse.Condition.Wire

/-!
# Rules and how they come about

What this file fixes:

* `Effect`, `Rule`: a named condition tree that allows or denies requests to one endpoint;
* `Draft.toRule`: a new rule from a draft whose name and conditions are in order;
* `Rule.patched`: a changed copy of a rule. What the patch does not mention stays as it was, and
  only what it does mention is checked;
* `RuleError`: why a draft, a patch or a rule is refused, and its wording.
-/

namespace Gatehouse

/-! ## 1. Rules -/

/-- What a matching rule does to a request. -/
inductive Effect where
  | allow
  | deny
  deriving DecidableEq, Repr

namespace Effect

/-- Every effect. -/
def all : List Effect := [.allow, .deny]

/-- The name of an effect. -/
def name : Effect → String
  | .allow => "Allow"
  | .deny => "Deny"

/-- The effect of a name. -/
def ofName? (s : String) : Option Effect := all.find? fun e => e.name == s

/-- The effect in a document. -/
def read? (d : Doc) : Option Effect := (d.choice? (all.map name)).bind ofName?

end Effect

/-- A named condition tree attached to an endpoint. -/
structure Rule where
  id : Uuid
  name : String
  description : Option String
  effect : Effect
  endpointId : Uuid
  conditions : Condition
  deriving DecidableEq, Repr

namespace Rule

/-- The fields of a rule, in order. -/
def fieldNames : List String :=
  ["id", "name", "description", "effect", "end_point_id", "conditions"]

open Doc.Scope in
/-- What is looked at in a document of a rule. -/
def scope : Doc.Scope := .fields (refine (ofNames fieldNames) "conditions" Wire.Node.scope)

/-- The rule in a document, not yet checked. -/
def read? (d : Doc) : Option Rule :=
  (d.fields? fieldNames).bind fun fs => do
    let id ← fs.required "id" Doc.uuid?
    let name ← fs.required "name" Doc.string?
    let description ← fs.optional "description" Doc.string?
    let effect ← fs.required "effect" Effect.read?
    let endpointId ← fs.required "end_point_id" Doc.uuid?
    let conditions ← fs.required "conditions" Condition.read?
    some ⟨id, name, description, effect, endpointId, conditions⟩

/-- The record of a rule. -/
def toValue (r : Rule) : Value :=
  .record [
    ("id", some (.string r.id.text)),
    ("name", some (.string r.name)),
    ("description", r.description.map .string),
    ("effect", some (.string r.effect.name)),
    ("end_point_id", some (.string r.endpointId.text)),
    ("conditions", some r.conditions.toValue)]

end Rule

/-! ## 2. Errors -/

/-- Why a rule is refused. -/
inductive RuleError where
  | invalidName (length : Nat)
  | missingConditions (name : String)
  | parse (name : String) (e : ParseError)
  | invalid (name : String) (v : Violation)
  deriving DecidableEq, Repr

/-- The wording of a parse error. -/
def ParseError.message : ParseError → String
  | .malformed => "malformed condition JSON"
  | .shape e => e.message

namespace RuleError

/-- The wording of an error without what it stems from. -/
def message : RuleError → String
  | .invalidName n =>
      "policy name must be between 3 and 100 characters (got " ++ toString n ++ ")"
  | .missingConditions name => "policy '" ++ name ++ "' has missing or null conditions"
  | .parse name e => "failed to parse conditions for policy '" ++ name ++ "': " ++ e.message
  | .invalid name v => "invalid conditions structure for policy '" ++ name ++ "': " ++ v.message

/-- The wordings of an error and of what it stems from, the error first. -/
def chain (e : RuleError) : List String :=
  match e with
  | .invalidName _ | .missingConditions _ => [e.message]
  | .parse _ cause => [e.message, cause.message]
  | .invalid _ cause => [e.message, cause.message]

end RuleError

/-! ## 3. Checks -/

/-- A name has from 3 to 100 characters. -/
def checkName (name : String) : Except RuleError Unit :=
  let n := name.toList.length
  if 3 ≤ n ∧ n ≤ 100 then .ok () else .error (.invalidName n)

/-- The tree of raw conditions, in order for a rule of the given name. -/
def buildConditions (limits : Limits) (name : String) (raw : Value) :
    Except RuleError Condition :=
  if raw = .null then .error (.missingConditions name)
  else match Condition.ofValue raw with
    | .error e => .error (.parse name e)
    | .ok c =>
        match c.violation? limits with
        | some v => .error (.invalid name v)
        | none => .ok c

/-- Accepts a rule whose name and tree are in order. -/
def Rule.check (limits : Limits) (r : Rule) : Except RuleError Unit :=
  match checkName r.name with
  | .error e => .error e
  | .ok () =>
      match r.conditions.violation? limits with
      | some v => .error (.invalid r.name v)
      | none => .ok ()

/-! ## 4. Drafts -/

/-- What a new rule is made from. -/
structure Draft where
  name : String
  description : Option String
  effect : Effect
  endpointId : Uuid
  conditions : Value
  deriving DecidableEq, Repr

namespace Draft

/-- The fields of a draft, in order. -/
def fieldNames : List String := ["name", "description", "effect", "end_point_id", "conditions"]

/-- The draft in a document. -/
def read? (d : Doc) : Option Draft :=
  (d.fields? fieldNames).bind fun fs => do
    let name ← fs.required "name" Doc.string?
    let description ← fs.optional "description" Doc.string?
    let effect ← fs.required "effect" Effect.read?
    let endpointId ← fs.required "end_point_id" Doc.uuid?
    let conditions ← fs.defaulted "conditions" .null Doc.value?
    some ⟨name, description, effect, endpointId, conditions⟩

/-- The rule of a draft, under the given identity. -/
def toRule (limits : Limits) (id : Uuid) (d : Draft) : Except RuleError Rule :=
  match checkName d.name with
  | .error e => .error e
  | .ok () =>
      (buildConditions limits d.name d.conditions).map fun c =>
        ⟨id, d.name, d.description, d.effect, d.endpointId, c⟩

end Draft

/-! ## 5. Patches -/

/-- What is to change in a rule. -/
structure Patch where
  name : Option String
  description : Option String
  effect : Option Effect
  endpointId : Option Uuid
  conditions : Option Value
  deriving DecidableEq, Repr

namespace Patch

/-- The patch in a document. -/
def read? (d : Doc) : Option Patch :=
  (d.fields? Draft.fieldNames).bind fun fs => do
    let name ← fs.optional "name" Doc.string?
    let description ← fs.optional "description" Doc.string?
    let effect ← fs.optional "effect" Effect.read?
    let endpointId ← fs.optional "end_point_id" Doc.uuid?
    let conditions ← fs.optional "conditions" Doc.value?
    some ⟨name, description, effect, endpointId, conditions⟩

/-- The name after a patch. -/
def newName (p : Patch) (r : Rule) : Except RuleError String :=
  match p.name with
  | none => .ok r.name
  | some n => (checkName n).map fun _ => n

/-- The tree after a patch that leaves the rule with the given name. -/
def newConditions (limits : Limits) (p : Patch) (r : Rule) (name : String) :
    Except RuleError Condition :=
  match p.conditions with
  | none => .ok r.conditions
  | some raw => buildConditions limits name raw

end Patch

/-- A changed copy of a rule. -/
def Rule.patched (limits : Limits) (r : Rule) (p : Patch) : Except RuleError Rule :=
  match p.newName r with
  | .error e => .error e
  | .ok name =>
      (p.newConditions limits r name).map fun conditions =>
        ⟨r.id, name, p.description.orElse fun _ => r.description, p.effect.getD r.effect,
          p.endpointId.getD r.endpointId, conditions⟩

end Gatehouse
