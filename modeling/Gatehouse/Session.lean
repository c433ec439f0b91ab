import Gatehouse.Audit.Journal
import Gatehouse.CommandLine
import Gatehouse.Engine
import Gatehouse.Loading
import Gatehouse.Settings

/-!
# Runs

What this file fixes:

* `Session.run`: what a run prints, how it ends, and which events it reports, given its arguments
  and the disk. The audit file is opened before the bundle is loaded, and every run that gets so
  far reports its start and whether the bundle was loaded;
* `Report.text`: a failure with its causes;
* `Session.leave`: the disk after a run, its events stamped and appended to the audit file.
-/

namespace Gatehouse

/-! ## 1. Failures -/

/-- A failure: its wordings from the outermost cause to the innermost. -/
structure Report where
  outermost : String
  causes : List String
  deriving DecidableEq, Repr

namespace Report

/-- A failure with the given wordings. -/
def ofChain : List String → Report
  | [] => ⟨"", []⟩
  | m :: causes => ⟨m, causes⟩

/-- A cause under its lead, its further lines indented. -/
def indented (lead later : String) (cause : String) : String :=
  lead ++ Text.joinWith ("\n" ++ later) ((Text.splitOn '\n' cause.toList).map String.ofList)

/-- The lead of a numbered cause, five characters wide. -/
def numberLead (n : Nat) : String :=
  let ds := Nat.toDigits 10 n
  String.ofList (List.replicate (5 - ds.length) ' ' ++ ds ++ [':', ' '])

/-- The causes from a number on, each on a line of its own. -/
def numbered (n : Nat) : List String → String
  | [] => ""
  | c :: rest => "\n" ++ indented (numberLead n) "       " c ++ numbered (n + 1) rest

/-- A failure with its causes, which are numbered if there are several. -/
def text (r : Report) : String :=
  let causes := match r.causes with
    | [] => ""
    | [c] => "\n\nCaused by:\n" ++ indented "    " "    " c
    | many => "\n\nCaused by:" ++ numbered 0 many
  "Error: " ++ r.outermost ++ causes ++ "\n"

end Report

/-! ## 2. Events -/

namespace Session

/-- The name under which events are reported. -/
def component : String := "authz-cli"

/-- The version of the program. -/
def version : String := "0.1.0"

open Audit in
/-- An event about no request. -/
def event (type : EventType) (details : List (String × Value)) : Event :=
  ⟨type, .ofComponent component, .ofEntries details, none⟩

/-- The start of a run. -/
def started : Audit.Event := event .processStarted [("version", .string version)]

/-- The bundle of a file was loaded. -/
def bundleLoaded (path : String) (b : Bundle) : Audit.Event :=
  event .bundleLoaded [
    ("policy_file", .string path),
    ("version", .string b.version),
    ("endpoints", .int b.endpoints.length),
    ("policies", .int b.rules.length)]

/-- The bundle of a file was refused. -/
def bundleRejected (path : String) (e : LoadError) : Audit.Event :=
  event .bundleRejected [
    ("policy_file", .string path),
    ("error", .string (Text.joinWith ": " e.chain))]

/-- Who reports a decision on a request, and which one. -/
def sourceOf (f : RequestFile) : Audit.Source :=
  ⟨component, f.subjectId?, some f.request.method.name, some f.request.path⟩

/-- A rule could not be evaluated. -/
def evaluationFailed (source : Audit.Source) (f : RuleFailure) : Audit.Event :=
  ⟨.evaluationFailed, source,
    .ofEntries [
      ("policy_id", .string f.rule.id.text),
      ("policy_name", .string f.rule.name),
      ("error", .string f.error.message)],
    none⟩

/-- A decision in full. -/
def recordOf (d : Decision) : Audit.DecisionRecord :=
  ⟨d.isAllowed, d.reason, d.matchedRule.map RuleRef.id, d.matchedRule.map RuleRef.name,
    d.errors.map fun f => ⟨f.rule.id, f.rule.name, f.error.message⟩⟩

/-- The events of a decision: the rules that could not be evaluated, and the decision itself. -/
def decided (source : Audit.Source) (d : Decision) : List Audit.Event :=
  d.errors.map (evaluationFailed source)
    ++ [⟨if d.isAllowed then .accessAllowed else .accessDenied, source, .object [],
      some (recordOf d)⟩]

/-- The event of a request that names no endpoint. -/
def refused (source : Audit.Source) (reason : String) : Audit.Event :=
  ⟨.accessDenied, source, .object [], some ⟨false, reason, none, none, []⟩⟩

/-! ## 3. Output -/

/-- A number in decimal digits. -/
def decimal (n : Nat) : String := String.ofList (Nat.toDigits 10 n)

/-- The lines of an endpoint and its rules. -/
def endpointLines (b : Bundle) (e : Endpoint) : List String :=
  let rules := b.rulesFor e.id
  ("  " ++ e.route ++ ": " ++ decimal rules.length ++ " rule(s), unmatched requests "
      ++ (if e.denyUnauthorized then "deny" else "allow"))
    :: rules.map fun r =>
      "    [" ++ r.effect.name ++ "] " ++ r.name ++ " (" ++ r.id.text ++ ")"

/-- The lines about a bundle that was loaded from a file. -/
def summaryLines (path : String) (b : Bundle) : List String :=
  (path ++ ": valid policy bundle (version " ++ b.version ++ ", " ++ decimal b.endpoints.length
      ++ " endpoint(s), " ++ decimal b.rules.length ++ " policy rule(s))")
    :: b.endpoints.flatMap (endpointLines b)

/-- Lines, each with its line break. -/
def linesText (lines : List String) : String := String.join (lines.map (· ++ "\n"))

/-! ## 4. Commands -/

/-- What a command leads to: text to print or a failure, and the events reported. -/
structure Result where
  outcome : Except Report String
  events : List Audit.Event
  deriving Repr

/-- The bundle is validated, and that is all. -/
def validate (path : String) (b : Bundle) : Result := ⟨.ok (linesText (summaryLines path b)), []⟩

/-- The request of a file is decided. -/
def check (d : Disk) (b : Bundle) (path : String) : Result :=
  match RequestFile.loadFile d path with
  | .error e => ⟨.error (.ofChain e.chain), []⟩
  | .ok f =>
      let told : Response × List Audit.Event := match b.decideRequest? f.subject f.request with
        | some decision => (decision.toResponse, decided (sourceOf f) decision)
        | none =>
            let response := Response.refusal (Bundle.unknownEndpointMessage f.request)
            (response, [refused (sourceOf f) response.reason])
      ⟨.ok (told.1.toValue.pretty ++ "\n"), told.2⟩

/-- One rule is evaluated for the request of a file. -/
def explain (d : Disk) (b : Bundle) (key path : String) : Result :=
  match b.findRule key with
  | .error e => ⟨.error ⟨e.message, []⟩, []⟩
  | .ok r =>
      match RequestFile.loadFile d path with
      | .error e => ⟨.error (.ofChain e.chain), []⟩
      | .ok f =>
          let report := r.report (.ofRequest f.subject f.request)
          ⟨.ok (report.toValue.pretty ++ "\n"), []⟩

/-- What a command leads to with a bundle that was loaded from a file. -/
def perform (d : Disk) (b : Bundle) (path : String) : Command → Result
  | .validate => validate path b
  | .check request => check d b request
  | .explain rule request => explain d b rule request

/-- What a command leads to, from the loading of the bundle on. -/
def execute (d : Disk) (s : Settings) (c : Command) : Result :=
  match Bundle.loadFile d s.policyFile s.limits with
  | .error e => ⟨.error (.ofChain e.chain), [started, bundleRejected s.policyFile e]⟩
  | .ok b =>
      let result := perform d b s.policyFile c
      ⟨result.outcome, started :: bundleLoaded s.policyFile b :: result.events⟩

/-! ## 5. Runs -/

/-- The end of a run: its exit code, what it printed, the disk after the audit file was opened, and
    the place of that file with the events to append. -/
structure Ending where
  exit : Nat
  out : String
  err : String
  disk : Disk
  trail : Option (Place × List Audit.Event)
  deriving Repr

/-- The settings of a run: those of its settings file or the standard ones, and the bundle that the
    line names. -/
def settings (d : Disk) (line : CommandLine) : Except Settings.LoadError Settings :=
  (Settings.load d line.config).map fun loaded =>
    let s := loaded.getD .standard
    { s with policyFile := line.policy.getD s.policyFile }

/-- The run of a command line. -/
def runLine (d : Disk) (line : CommandLine) : Ending :=
  match settings d line with
  | .error e => ⟨1, "", Report.text ⟨e.message, []⟩, d, none⟩
  | .ok s =>
      match d.openForAppending s.logging.auditPath with
      | (.error e, left) =>
          let report : Report := ⟨"failed to open audit log " ++ s.logging.auditPath, [e.message]⟩
          ⟨1, "", report.text, left, none⟩
      | (.ok place, opened) =>
          let result := execute opened s line.command
          match result.outcome with
          | .ok text => ⟨0, text, "", opened, some (place, result.events)⟩
          | .error report => ⟨1, "", report.text, opened, some (place, result.events)⟩

/-- How the program is called. -/
def usage : String := "Usage: authz [--config FILE] <validate|check|explain> [OPTIONS]\n"

/-- The end of a run that does not start. -/
def endUsage (d : Disk) : UsageError → Ending
  | .displayHelp => ⟨0, usage, "", d, none⟩
  | .displayVersion => ⟨0, "authz " ++ version ++ "\n", "", d, none⟩
  | _ => ⟨2, "", usage, d, none⟩

/-- The run of the given arguments. -/
def run (d : Disk) (args : List String) : Ending :=
  match CommandLine.parse args with
  | .error e => endUsage d e
  | .ok line => runLine d line

/-- Identity and time of the entries of a run. -/
abbrev Stamp := Uuid × Audit.Timestamp

/-- The lines of events, each with the next stamp. -/
def stampedLines : List Stamp → List Audit.Event → List String
  | (id, time) :: stamps, e :: events =>
      (Audit.Entry.mk id time e).line :: stampedLines stamps events
  | _, _ => []

/-- The text that a run appends to the audit file. -/
def trailText (stamps : List Stamp) (events : List Audit.Event) : String :=
  let written := Audit.Journal.empty.writeAll (stampedLines stamps events)
  written.1 ++ written.2.flush.1

/-- The disk after a run. -/
def leave (e : Ending) (stamps : List Stamp) : Disk :=
  match e.trail with
  | none => e.disk
  | some (place, events) => e.disk.append place (trailText stamps events)

end Session

end Gatehouse
