-- SUMMARY: The commands of the command line and how they are spelled.
import FlakeLint.CommandLine.Arguments
import FlakeLint.Settings.Edit

/-!
# Commands

Three commands: scan a project, list the checkers, show or change settings. The
settings file may be named before the command.
-/

namespace FlakeLint

/-- Where a scorecard is to go. -/
inductive ScorecardTarget where
  /-- Where the settings say. -/
  | asSet
  | path (path : String)
deriving DecidableEq, Repr

structure ScanRequest where
  path : String
  json : Bool
  explain : Bool
  omitFileSummary : Bool
  omitCodebase : Bool
  scorecard : Option ScorecardTarget
  exclude : List String
deriving DecidableEq, Repr

inductive Command where
  | scan (request : ScanRequest)
  | checkers
  | showSettings
  | setSetting (key value : String)
  | unsetSetting (key : String)
deriving DecidableEq, Repr

/-- A command with the settings file it is to use, if one is named. -/
structure Invocation where
  settingsPath : Option String
  command : Command
deriving DecidableEq, Repr

namespace ScanRequest

/-- The settings that the request overrides. -/
def overrides (request : ScanRequest) : List (Utf16 × Json) :=
  let format : Option ReportFormat :=
    match request.json, request.scorecard with
    | true, some _ => some .both
    | true, none => some .json
    | false, some _ => some .scorecard
    | false, none => none
  let entry (setting : Setting) (value : Option Json) : Utf16 × Json :=
    (setting.key, value.getD .null)
  [entry .explain (if request.explain then some (.bool true) else none),
    entry .fileSummary (if request.omitFileSummary then some (.bool false) else none),
    entry .codebase (if request.omitCodebase then some (.bool false) else none),
    entry .exclude
      (if request.exclude.isEmpty then none else some (.list (request.exclude.map Json.ofString))),
    entry .format (format.map fun format => .text format.name),
    entry .scorecardPath (match request.scorecard with
      | some (.path path) => some (.text path)
      | _ => none)]

end ScanRequest

/-! ## Spelling -/

namespace Command

def topGrammar : Grammar := ⟨[("--config", .one)], [.rest]⟩

def scanGrammar : Grammar where
  options := [("--json", .none), ("--explain", .none), ("--no-file-summary", .none),
    ("--no-codebase", .none), ("--scorecard", .optional), ("--exclude", .many)]
  positionals := [.optional]

def settingsGrammar : Grammar := ⟨[], [.rest]⟩

/-- A word that stands for the path in the settings. -/
def asSetWord : String := "__config__"

/-- The target that the values of the scorecard option stand for; an empty path stands for none. -/
def scorecardOf : List String → Option ScorecardTarget
  | [] => some .asSet
  | path :: _ => if path = "" then none else if path = asSetWord then some .asSet else some (.path path)

def scanOf (arguments : Arguments) : Command :=
  let path := (arguments.positionals.flatten.head?).getD ""
  .scan {
    path := if path = "" then "." else path
    json := arguments.isSet "--json"
    explain := arguments.isSet "--explain"
    omitFileSummary := arguments.isSet "--no-file-summary"
    omitCodebase := arguments.isSet "--no-codebase"
    scorecard := (arguments.option? "--scorecard").bind scorecardOf
    exclude := (arguments.option? "--exclude").getD [] }

/-- Fails if something fits nowhere. -/
def checked (arguments : Arguments) (command : Command) : Except Halt Command :=
  if arguments.extras.isEmpty then .ok command else .error .misuse

/-- A command for settings. Without a word there, the settings are shown. -/
def settingsOf (words : List String) : Except Halt Command := do
  match words with
  | [] => return .showSettings
  | "show" :: rest => checked (← Arguments.ofList ⟨[], []⟩ rest) .showSettings
  | "set" :: rest =>
    let arguments ← Arguments.ofList ⟨[], [.one, .one]⟩ rest
    match arguments.positionals with
    | [[key], [value]] => checked arguments (.setSetting key value)
    | _ => throw .misuse
  | "unset" :: rest =>
    let arguments ← Arguments.ofList ⟨[], [.one]⟩ rest
    match arguments.positionals with
    | [[key]] => checked arguments (.unsetSetting key)
    | _ => throw .misuse
  | _ => throw .misuse

def ofWords (words : List String) : Except Halt Command := do
  match words with
  | "scan" :: rest =>
    let arguments ← Arguments.ofList scanGrammar rest
    checked arguments (scanOf arguments)
  | "checkers" :: rest => checked (← Arguments.ofList ⟨[], []⟩ rest) .checkers
  | "config" :: rest =>
    let arguments ← Arguments.ofList settingsGrammar rest
    let command ← settingsOf arguments.positionals.flatten
    checked arguments command
  | _ => throw .misuse

end Command

/-- Reads a command line. What fits nowhere counts as misuse only after the command has been read, so
a request for help behind it is still heard. -/
def Invocation.ofList (arguments : List String) : Except Halt Invocation := do
  let top ← Arguments.ofList Command.topGrammar arguments
  let command ← Command.ofWords top.positionals.flatten
  let command ← Command.checked top command
  let path := (top.option? "--config").bind List.head?
  return ⟨path.filter (· != ""), command⟩

end FlakeLint
