import Gatehouse.Doc.Scope

/-!
# Endpoints

What this file fixes:

* `Method`: the HTTP methods that an endpoint can be registered under;
* `Endpoint`: a method and a route, and what becomes of requests that no rule decides.
-/

namespace Gatehouse

/-- An HTTP method. -/
inductive Method where
  | get
  | post
  | put
  | patch
  | delete
  deriving DecidableEq, Repr

namespace Method

/-- Every method. -/
def all : List Method := [.get, .post, .put, .patch, .delete]

/-- The name of a method. -/
def name : Method → String
  | .get => "GET"
  | .post => "POST"
  | .put => "PUT"
  | .patch => "PATCH"
  | .delete => "DELETE"

/-- The method of a name. -/
def ofName? (s : String) : Option Method := all.find? fun m => m.name == s

/-- The wording for a name that is no method. -/
def unknownMessage (s : String) : String :=
  "unsupported HTTP method '" ++ s ++ "' (expected GET, POST, PUT, PATCH or DELETE)"

/-- The method in a document. -/
def read? (d : Doc) : Option Method := (d.choice? (all.map name)).bind ofName?

end Method

/-- An endpoint. Its path is a route template that requests name as it stands. -/
structure Endpoint where
  id : Uuid
  method : Method
  path : String
  denyUnauthorized : Bool
  description : Option String
  deriving DecidableEq, Repr

namespace Endpoint

/-- The fields of an endpoint, in order. -/
def fieldNames : List String := ["id", "method", "path", "deny_unauthorized", "description"]

/-- What is looked at in a document of an endpoint. -/
def scope : Doc.Scope := .record fieldNames

/-- The endpoint in a document. -/
def read? (d : Doc) : Option Endpoint :=
  (d.fields? fieldNames).bind fun fs => do
    let id ← fs.required "id" Doc.uuid?
    let method ← fs.required "method" Method.read?
    let path ← fs.required "path" Doc.string?
    let denyUnauthorized ← fs.defaulted "deny_unauthorized" false Doc.bool?
    let description ← fs.optional "description" Doc.string?
    some ⟨id, method, path, denyUnauthorized, description⟩

/-- The record of an endpoint. -/
def toValue (e : Endpoint) : Value :=
  .record [
    ("id", some (.string e.id.text)),
    ("method", some (.string e.method.name)),
    ("path", some (.string e.path)),
    ("deny_unauthorized", some (.bool e.denyUnauthorized)),
    ("description", e.description.map .string)]

/-- The method and the path, as messages name an endpoint. -/
def route (e : Endpoint) : String := e.method.name ++ " " ++ e.path

end Endpoint

end Gatehouse
