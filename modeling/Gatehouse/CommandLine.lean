/-!
# The command line

What this file fixes:

* `CommandLine`: the settings file and the command of a run, with the command's own options;
* `CommandLine.parse`: the reading of the arguments from left to right. An option with an attached
  value is settled at once. One without waits for the next argument and is settled when the next
  option starts or the arguments end; only then is its value missed, repeated or refused. What is
  no argument at all is refused at once. An option in front of the command that still waits to be
  settled is settled after those of the command;
* `UsageError`: why the arguments are refused, or what is asked for instead of a run.
-/

namespace Gatehouse

/-! ## 1. Commands -/

/-- What a run is to do. -/
inductive Command where
  | validate
  | check (request : String)
  | explain (rule request : String)
  deriving DecidableEq, Repr

/-- The arguments of a run. -/
structure CommandLine where
  config : String
  policy : Option String
  command : Command
  deriving DecidableEq, Repr

/-- The name of a command. -/
def Command.name : Command → String
  | .validate => "validate"
  | .check _ => "check"
  | .explain _ _ => "explain"

/-- Why there is no run. -/
inductive UsageError where
  | unknownArgument
  | invalidSubcommand
  | invalidValue
  | tooManyValues
  | argumentConflict
  | missingRequiredArgument
  | missingSubcommand
  | displayHelp
  | displayVersion
  | displayHelpOnMissing
  deriving DecidableEq, Repr

/-! ## 2. Options -/

/-- An option with a value. -/
inductive Flag where
  | config
  | policy
  | rule
  | request
  deriving DecidableEq, Repr

namespace Flag

/-- The long name. -/
def long : Flag → String
  | .config => "config"
  | .policy => "policy"
  | .rule => "rule"
  | .request => "request"

/-- The letter, if there is one. -/
def letter? : Flag → Option Char
  | .config => some 'c'
  | .policy => some 'p'
  | .rule => none
  | .request => some 'r'

/-- A value is acceptable: paths have characters. -/
def accepts (f : Flag) (value : String) : Bool := f == .rule || !value.isEmpty

end Flag

/-- Where options stand: in front of the command, or behind it. -/
inductive Level where
  | top
  | validate
  | check
  | explain
  deriving DecidableEq, Repr

namespace Level

/-- The options that are known there. -/
def flags : Level → List Flag
  | .top => [.config]
  | .validate => [.policy]
  | .check => [.policy, .request]
  | .explain => [.policy, .rule, .request]

/-- The command of a name. -/
def ofName? (s : String) : Option Level :=
  if s = "validate" then some .validate
  else if s = "check" then some .check
  else if s = "explain" then some .explain
  else none

end Level

/-! ## 3. Settling options -/

/-- The options read so far, and the last one, which is not settled yet. -/
structure Scan where
  given : List (Flag × String)
  pending : Option (Flag × Option String)
  deriving DecidableEq, Repr

namespace Scan

/-- Nothing read so far. -/
def start : Scan := ⟨[], none⟩

/-- Settles the last option: it must have a value, be there once, and accept the value. -/
def settle (s : Scan) : Except UsageError Scan :=
  match s.pending with
  | none => .ok s
  | some (_, none) => .error .invalidValue
  | some (f, some v) =>
      if (s.given.lookup f).isSome then .error .argumentConflict
      else if f.accepts v then .ok ⟨s.given ++ [(f, v)], none⟩
      else .error .invalidValue

/-- Starts an option; with a value attached to it, it is settled at once. -/
def begin (s : Scan) (f : Flag) (value : Option String) : Except UsageError Scan :=
  s.settle.bind fun s =>
    let started : Scan := { s with pending := some (f, value) }
    if value.isSome then started.settle else .ok started

/-- The last option waits for its value. -/
def awaits (s : Scan) : Bool :=
  match s.pending with
  | some (_, none) => true
  | _ => false

/-- Gives the last option its value. -/
def supply (s : Scan) (value : String) : Scan :=
  { s with pending := s.pending.map fun p => (p.1, some value) }

/-- Answers a request for help or the version. -/
def answer (s : Scan) (e : UsageError) : Except UsageError Scan :=
  match s.settle with
  | .error f => .error f
  | .ok _ => .error e

/-! ## 4. Reading options -/

/-- The characters up to an equals sign, and those after it, if there is one. -/
def cutAtEquals (cs : List Char) : List Char × Option (List Char) :=
  (cs.takeWhile (· != '='), match cs.dropWhile (· != '=') with
    | [] => none
    | _ :: value => some value)

/-- Reads a long option, given without its hyphens. -/
def long (level : Level) (s : Scan) (cs : List Char) : Except UsageError Scan :=
  let name := String.ofList (cutAtEquals cs).1
  let value := (cutAtEquals cs).2.map String.ofList
  if name = "help" then
    if value.isSome then .error .tooManyValues else s.answer .displayHelp
  else if name = "version" ∧ level = .top then
    if value.isSome then .error .tooManyValues else s.answer .displayVersion
  else match level.flags.find? fun f => f.long == name with
    | some f => s.begin f value
    | none => .error .unknownArgument

/-- Reads a letter and what stands behind it in the same argument. -/
def short (level : Level) (s : Scan) (letter : Char) (rest : List Char) :
    Except UsageError Scan :=
  if letter = 'h' then s.answer .displayHelp
  else if letter = 'V' ∧ level = .top then s.answer .displayVersion
  else match level.flags.find? fun f => f.letter? == some letter with
    | none => .error .unknownArgument
    | some f =>
        match rest with
        | [] => s.begin f none
        | '=' :: value => s.begin f (some (String.ofList value))
        | value => s.begin f (some (String.ofList value))

/-- Reads an argument as an option, if it is written as one. -/
def option? (level : Level) (s : Scan) (arg : String) : Option (Except UsageError Scan) :=
  match arg.toList with
  | '-' :: '-' :: name => some (long level s name)
  | '-' :: letter :: rest => some (short level s letter rest)
  | _ => none

/-- Reads the arguments behind a command. Nothing but options and their values may stand there. -/
def read (level : Level) (s : Scan) : List String → Except UsageError Scan
  | [] => s.settle
  | arg :: rest =>
      if arg = "--" then if rest.isEmpty then s.settle else .error .unknownArgument
      else match option? level s arg with
        | some (.ok s) => read level s rest
        | some (.error e) => .error e
        | none => if s.awaits then read level (s.supply arg) rest else .error .unknownArgument

end Scan

/-! ## 5. Reading lines -/

namespace Command

/-- The command of settled options. -/
def ofScan (level : Level) (s : Scan) : Except UsageError Command :=
  match level, s.given.lookup .rule, s.given.lookup .request with
  | .check, _, some request => .ok (.check request)
  | .explain, some rule, some request => .ok (.explain rule request)
  | .check, _, none => .error .missingRequiredArgument
  | .explain, _, _ => .error .missingRequiredArgument
  | _, _, _ => .ok .validate

end Command

namespace CommandLine

/-- The settings file where none is given. -/
def standardConfig : String := "authz.yaml"

/-- The answer to the word `help` and the words behind it: help on the commands or on one. -/
def help : List String → UsageError
  | [] => .displayHelp
  | [name] => if name = "help" ∨ (Level.ofName? name).isSome then .displayHelp
      else .invalidSubcommand
  | _ => .invalidSubcommand

/-- The line of a command and the options in front of it. -/
def ofCommand (top : Scan) (level : Level) (args : List String) :
    Except UsageError CommandLine := do
  let behind ← Scan.read level .start args
  let command ← Command.ofScan level behind
  let top ← top.settle
  .ok ⟨(top.given.lookup .config).getD standardConfig, behind.given.lookup .policy, command⟩

/-- What is missing from a line without a command. -/
def withoutCommand (top : Scan) : UsageError :=
  match top.settle with
  | .error e => e
  | .ok s => if s.given.isEmpty then .displayHelpOnMissing else .missingSubcommand

/-- Reads the arguments up to the command and then those behind it. -/
def readTop (top : Scan) : List String → Except UsageError CommandLine
  | [] => .error (withoutCommand top)
  | arg :: rest =>
      match top.awaits, Level.ofName? arg with
      | false, some level => ofCommand top level rest
      | _, _ =>
          if !top.awaits && arg == "help" then .error (help rest)
          else if arg = "--" then
            match rest with
            | [] => .error (withoutCommand top)
            | word :: _ =>
                .error (if word = "help" ∨ (Level.ofName? word).isSome then .unknownArgument
                  else .invalidSubcommand)
          else match Scan.option? .top top arg with
            | some (.ok s) => readTop s rest
            | some (.error e) => .error e
            | none =>
                if top.awaits then readTop (top.supply arg) rest else .error .invalidSubcommand

/-- The run that arguments ask for. -/
def parse (args : List String) : Except UsageError CommandLine := readTop .start args

end CommandLine

end Gatehouse
