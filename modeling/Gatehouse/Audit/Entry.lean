import Gatehouse.Audit.Timestamp
import Gatehouse.Doc
import Gatehouse.Value.Text

/-!
# Audit entries

What this file fixes:

* `Entry`: one event, with who reported it, and the decision if it was one. Unlike the response to
  a caller it has the errors of rules in full;
* `Entry.line`: the line of an entry in the audit file, its fields in order;
* `Entry.read?`: the entry in a document.
-/

namespace Gatehouse.Audit

/-! ## 1. Events -/

/-- The kind of an event. -/
inductive EventType where
  | accessAllowed
  | accessDenied
  | evaluationFailed
  | bundleLoaded
  | bundleRejected
  | processStarted
  deriving DecidableEq, Repr

namespace EventType

/-- Every kind of event. -/
def all : List EventType :=
  [.accessAllowed, .accessDenied, .evaluationFailed, .bundleLoaded, .bundleRejected,
    .processStarted]

/-- The name of a kind of event. -/
def name : EventType → String
  | .accessAllowed => "access_allowed"
  | .accessDenied => "access_denied"
  | .evaluationFailed => "policy_evaluation_failed"
  | .bundleLoaded => "bundle_loaded"
  | .bundleRejected => "bundle_rejected"
  | .processStarted => "process_started"

/-- The kind of event of a name. -/
def ofName? (s : String) : Option EventType := all.find? fun e => e.name == s

/-- The kind of event in a document. -/
def read? (d : Doc) : Option EventType := (d.choice? (all.map name)).bind ofName?

end EventType

/-- Who reports an event, and the request that it is about. -/
structure Source where
  component : String
  subjectId : Option String
  method : Option String
  path : Option String
  deriving DecidableEq, Repr

namespace Source

/-- A component that reports an event about no request. -/
def ofComponent (component : String) : Source := ⟨component, none, none, none⟩

/-- The fields of a source, in order. -/
def fieldNames : List String := ["component", "subject_id", "method", "path"]

/-- The source in a document. -/
def read? (d : Doc) : Option Source :=
  (d.fields? fieldNames).bind fun fs => do
    let component ← fs.required "component" Doc.string?
    let subjectId ← fs.optional "subject_id" Doc.string?
    let method ← fs.optional "method" Doc.string?
    let path ← fs.optional "path" Doc.string?
    some ⟨component, subjectId, method, path⟩

/-- The record of a source. -/
def toValue (s : Source) : Value :=
  .record [
    ("component", some (.string s.component)),
    ("subject_id", s.subjectId.map .string),
    ("method", s.method.map .string),
    ("path", s.path.map .string)]

end Source

/-! ## 2. Decisions in full -/

/-- The error of a rule that could not be evaluated. -/
structure EvaluationError where
  ruleId : Uuid
  ruleName : String
  error : String
  deriving DecidableEq, Repr

namespace EvaluationError

/-- The fields of an evaluation error, in order. -/
def fieldNames : List String := ["policy_id", "policy_name", "error"]

/-- The evaluation error in a document. -/
def read? (d : Doc) : Option EvaluationError :=
  (d.fields? fieldNames).bind fun fs => do
    let ruleId ← fs.required "policy_id" Doc.uuid?
    let ruleName ← fs.required "policy_name" Doc.string?
    let error ← fs.required "error" Doc.string?
    some ⟨ruleId, ruleName, error⟩

/-- The record of an evaluation error. -/
def toValue (e : EvaluationError) : Value :=
  .record [
    ("policy_id", some (.string e.ruleId.text)),
    ("policy_name", some (.string e.ruleName)),
    ("error", some (.string e.error))]

end EvaluationError

/-- A decision in full. -/
structure DecisionRecord where
  allowed : Bool
  reason : String
  ruleId : Option Uuid
  ruleName : Option String
  errors : List EvaluationError
  deriving DecidableEq, Repr

namespace DecisionRecord

/-- The fields of a decision, in order. -/
def fieldNames : List String :=
  ["allowed", "reason", "policy_id", "policy_name", "evaluation_errors"]

/-- The decision in a document. -/
def read? (d : Doc) : Option DecisionRecord :=
  (d.fields? fieldNames).bind fun fs => do
    let allowed ← fs.required "allowed" Doc.bool?
    let reason ← fs.required "reason" Doc.string?
    let ruleId ← fs.optional "policy_id" Doc.uuid?
    let ruleName ← fs.optional "policy_name" Doc.string?
    let errors ← fs.defaulted "evaluation_errors" [] (Doc.list? EvaluationError.read?)
    some ⟨allowed, reason, ruleId, ruleName, errors⟩

/-- The record of a decision. -/
def toValue (d : DecisionRecord) : Value :=
  .record [
    ("allowed", some (.bool d.allowed)),
    ("reason", some (.string d.reason)),
    ("policy_id", d.ruleId.map fun u => .string u.text),
    ("policy_name", d.ruleName.map .string),
    ("evaluation_errors", if d.errors.isEmpty then none
      else some (.array (d.errors.map EvaluationError.toValue)))]

end DecisionRecord

/-! ## 3. Entries -/

/-- What is reported, before it has an identity and a time. -/
structure Event where
  type : EventType
  source : Source
  details : Value
  decision : Option DecisionRecord
  deriving DecidableEq, Repr

/-- An entry of the audit file. -/
structure Entry where
  id : Uuid
  timestamp : Timestamp
  event : Event
  deriving DecidableEq, Repr

namespace Event

/-- The fields of an event, as they follow the stamp of an entry. -/
def entries (e : Event) : List (String × Option Value) :=
  [("event_type", some (.string e.type.name)),
    ("source", some e.source.toValue),
    ("details", some e.details),
    ("decision", e.decision.map DecisionRecord.toValue)]

end Event

namespace Entry

/-- The fields of an entry, in order. -/
def fieldNames : List String :=
  ["id", "timestamp", "event_type", "source", "details", "decision"]

/-- The entry in a document. -/
def read? (d : Doc) : Option Entry :=
  (d.fields? fieldNames).bind fun fs => do
    let id ← fs.required "id" Doc.uuid?
    let timestamp ← fs.required "timestamp" fun t => t.string?.bind Timestamp.read?
    let type ← fs.required "event_type" EventType.read?
    let source ← fs.required "source" Source.read?
    let details ← fs.required "details" Doc.value?
    let decision ← fs.optional "decision" DecisionRecord.read?
    some ⟨id, timestamp, ⟨type, source, details, decision⟩⟩

/-- The record of an entry. -/
def toValue (e : Entry) : Value :=
  .record ([("id", some (.string e.id.text)), ("timestamp", some (.string e.timestamp.text))]
    ++ e.event.entries)

/-- The line of an entry, with the line break. -/
def line (e : Entry) : String := e.toValue.compact ++ "\n"

end Entry

end Gatehouse.Audit
