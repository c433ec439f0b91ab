import Gatehouse.Context
import Gatehouse.Endpoint

/-!
# Requests

What this file fixes:

* `Request`: what is asked for, without the claims of who asks;
* `Context.ofRequest`: what rules read when a request is decided, where a missing map is empty;
* `RequestFile`: a request next to the claims of its subject, as a file has them. Everything in it
  but the claims is read with all scalars resolved, so that only a string is a string.
-/

namespace Gatehouse

/-! ## 1. Requests -/

/-- A request to authorize. -/
structure Request where
  method : Method
  path : String
  resource : Option Attributes
  pathParams : Option Attributes
  body : Option Attributes
  query : Option Attributes
  headers : Option Attributes
  deriving DecidableEq, Repr

namespace Request

/-- The fields of a request, in order. -/
def fieldNames : List String :=
  ["method", "path", "resource", "path_params", "body", "query", "headers"]

/-- The request with the given fields. -/
def ofFields? (fs : Doc.Fields) : Option Request := do
  let method ← fs.required "method" Method.read?
  let path ← fs.required "path" Doc.string?
  let resource ← fs.optional "resource" Doc.attributes?
  let pathParams ← fs.optional "path_params" Doc.attributes?
  let body ← fs.optional "body" Doc.attributes?
  let query ← fs.optional "query" Doc.attributes?
  let headers ← fs.optional "headers" Doc.attributes?
  some ⟨method, path, resource, pathParams, body, query, headers⟩

/-- The request in a document. -/
def read? (d : Doc) : Option Request := (d.fields? fieldNames).bind ofFields?

/-- The record of a request. -/
def toValue (r : Request) : Value :=
  .record [
    ("method", some (.string r.method.name)),
    ("path", some (.string r.path)),
    ("resource", r.resource.map .object),
    ("path_params", r.pathParams.map .object),
    ("body", r.body.map .object),
    ("query", r.query.map .object),
    ("headers", r.headers.map .object)]

end Request

namespace Context

/-- What rules read about a request and the claims of its subject. -/
def ofRequest (subject : Attributes) (r : Request) : Context :=
  ⟨subject, r.resource.getD [], r.pathParams.getD [], r.body.getD [], r.query.getD [],
    r.headers.getD []⟩

/-- The context in a document. -/
def read? (d : Doc) : Option Context :=
  (d.fields? (Namespace.all.map Namespace.name)).bind fun fs => do
    let subject ← fs.defaulted "subject" [] Doc.attributes?
    let resource ← fs.defaulted "resource" [] Doc.attributes?
    let path ← fs.defaulted "path" [] Doc.attributes?
    let body ← fs.defaulted "body" [] Doc.attributes?
    let query ← fs.defaulted "query" [] Doc.attributes?
    let header ← fs.defaulted "header" [] Doc.attributes?
    some ⟨subject, resource, path, body, query, header⟩

end Context

/-! ## 2. Request files -/

/-- A request with the claims of its subject. -/
structure RequestFile where
  subject : Attributes
  request : Request
  deriving DecidableEq, Repr

namespace RequestFile

/-- The entries of a document at the top of a file, which must be a map. -/
def entries? : Doc → Option (List (String × Doc))
  | .object entries => some entries
  | .mapping entries => Doc.textEntries? entries
  | .tagged d => entries? d
  | _ => none

/-- The claims of the subject among the entries; they are empty where there are none. -/
def subject? (entries : List (String × Doc)) : Option Attributes :=
  match entries.filter fun e => e.1 == "subject" with
  | [] => some []
  | [(_, d)] => d.attributes?
  | _ => none

/-- The request among the entries. -/
def request? (entries : List (String × Doc)) : Option Request :=
  (Doc.settleEntries? (entries.filter fun e => e.1 != "subject")).bind fun settled =>
    (Doc.knownFields? Request.fieldNames settled).bind Request.ofFields?

/-- The request file in a document. -/
def read? (d : Doc) : Option RequestFile :=
  (entries? d).bind fun entries => do
    let subject ← subject? entries
    let request ← request? entries
    some ⟨subject, request⟩

/-- The claim that names the subject, if it is a string or a number. -/
def subjectId? (f : RequestFile) : Option String :=
  match f.subject.lookup "id" with
  | some (.string s) => some s
  | some (.number n) => some (String.ofList n.text)
  | _ => none

end RequestFile

end Gatehouse
