import Gatehouse.Condition.Validity
import Gatehouse.Disk
import Gatehouse.Format

/-!
# Settings

What this file fixes:

* `Settings`: where the bundle and the audit trail are, what is logged, and the limits of trees;
* `Settings.load`: the settings of a file; a file that is not there leaves the standard ones.
-/

namespace Gatehouse

namespace Limits

/-- The fields of the limits, in order. -/
def fieldNames : List String := ["reject_unary_comparand", "max_depth"]

/-- What is looked at in a document of limits. -/
def scope : Doc.Scope := .record fieldNames

/-- The limits in a document. -/
def read? (d : Doc) : Option Limits :=
  (d.fields? fieldNames).bind fun fs => do
    let reject ← fs.defaulted "reject_unary_comparand" standard.rejectUnaryComparand Doc.bool?
    let depth ← fs.defaulted "max_depth" standard.maxDepth Doc.natural?
    some ⟨reject, depth⟩

/-- The record of limits. -/
def toValue (l : Limits) : Value :=
  .record [
    ("reject_unary_comparand", some (.bool l.rejectUnaryComparand)),
    ("max_depth", some (.int l.maxDepth))]

end Limits

/-- What is logged, and where the audit trail goes. -/
structure Logging where
  level : String
  json : Bool
  auditPath : String
  deriving DecidableEq, Repr

namespace Logging

/-- The logging where nothing else is set. -/
def standard : Logging := ⟨"info", true, "audit.jsonl"⟩

/-- The fields of the logging settings, in order. -/
def fieldNames : List String := ["level", "json", "audit_log_path"]

/-- What is looked at in a document of logging settings. -/
def scope : Doc.Scope := .record fieldNames

/-- The logging settings in a document. -/
def read? (d : Doc) : Option Logging :=
  (d.fields? fieldNames).bind fun fs => do
    let level ← fs.defaulted "level" standard.level Doc.string?
    let json ← fs.defaulted "json" standard.json Doc.bool?
    let auditPath ← fs.defaulted "audit_log_path" standard.auditPath Doc.string?
    some ⟨level, json, auditPath⟩

/-- The record of the logging settings. -/
def toValue (l : Logging) : Value :=
  .record [
    ("level", some (.string l.level)),
    ("json", some (.bool l.json)),
    ("audit_log_path", some (.string l.auditPath))]

end Logging

/-- The settings of a run. -/
structure Settings where
  policyFile : String
  logging : Logging
  limits : Limits
  deriving DecidableEq, Repr

namespace Settings

/-- The settings where nothing else is set. -/
def standard : Settings := ⟨"policy.yaml", .standard, .standard⟩

/-- The fields of the settings, in order. -/
def fieldNames : List String := ["policy_file", "logging", "validation"]

open Doc.Scope in
/-- What is looked at in a document of settings. -/
def scope : Doc.Scope :=
  .fields (refine (refine (ofNames fieldNames) "logging" Logging.scope) "validation" Limits.scope)

/-- The settings in a document. -/
def read? (d : Doc) : Option Settings :=
  (d.fields? fieldNames).bind fun fs => do
    let policyFile ← fs.defaulted "policy_file" standard.policyFile Doc.string?
    let logging ← fs.defaulted "logging" standard.logging Logging.read?
    let limits ← fs.defaulted "validation" standard.limits Limits.read?
    some ⟨policyFile, logging, limits⟩

/-- The record of the settings. -/
def toValue (s : Settings) : Value :=
  .record [
    ("policy_file", some (.string s.policyFile)),
    ("logging", some s.logging.toValue),
    ("validation", some s.limits.toValue)]

/-- The settings of a text. -/
def parse? (text : String) : Option Settings := (Yaml.read? scope text).bind read?

/-- Why settings cannot be loaded. -/
inductive LoadError where
  | unreadableFile (path : String) (e : DiskError)
  | unreadableText (path : String)
  deriving DecidableEq, Repr

/-- The wording of a failure to load. -/
def LoadError.message : LoadError → String
  | .unreadableFile path e => "failed to read config file " ++ path ++ ": " ++ e.message
  | .unreadableText path => "failed to parse config file " ++ path

/-- The settings of the file at a path; none if there is no such file. -/
def load (d : Disk) (path : String) : Except LoadError (Option Settings) :=
  if d.holds path then
    match d.read path with
    | .error e => .error (.unreadableFile path e)
    | .ok text =>
        match parse? text with
        | none => .error (.unreadableText path)
        | some s => .ok (some s)
  else .ok none

end Settings

end Gatehouse
