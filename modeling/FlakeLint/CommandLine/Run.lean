-- SUMMARY: Running a command on a project.
import FlakeLint.CommandLine.Command
import FlakeLint.Report.Console
import FlakeLint.Report.Document
import FlakeLint.Scan.Log
import FlakeLint.Scorecard.File
import FlakeLint.Settings.Display

/-!
# Running commands

A run reads the settings, does what the command says, and ends with an exit code
and the text of both streams. A fault that no command handles stops it; so does a
line that is not taken where it is printed to. The disk is handed on as the run
leaves it.
-/

namespace FlakeLint

/-- Where a command runs. -/
structure Surroundings where
  disk : Disk
  terminal : Terminal
  /-- What takes the lines that are printed. -/
  output : Sink
  /-- How deep the settings file may nest. -/
  nesting : Nat
  /-- Is the log shown on the error stream? -/
  showsLog : Bool
  /-- Are there any parsers at all? -/
  canParse : Bool
  grammars : List String
  imaging : Option Imaging

inductive Outcome where
  /-- The arguments ended the run. -/
  | usage (exit : Nat)
  | finished (exit : Nat) (output : Utf16) (errors : String)
  | stopped (fault : Fault)
deriving DecidableEq, Repr

/-- A run: how it ended, the disk it leaves, what it has drawn. -/
structure Run where
  outcome : Outcome
  disk : Disk
  strokes : List Stroke

namespace Surroundings

def settingsName : String := "testcopilot.config.json"

/-- The settings file that is used unless another is named. -/
def defaultSettingsPath (surroundings : Surroundings) : String :=
  Path.normalized (surroundings.disk.home ++ "/" ++ settingsName)

/-- A run that a fault stops. -/
def stop (surroundings : Surroundings) (fault : Fault) : Run :=
  ⟨.stopped fault, surroundings.disk, []⟩

/-- A run that ends in order and leaves everything as it is. -/
def conclude (surroundings : Surroundings) (exit : Nat) (lines : List Utf16)
    (messages : List Message) : Run where
  outcome := .finished exit (.ofLines lines)
    (Message.stream surroundings.terminal surroundings.showsLog messages)
  disk := surroundings.disk
  strokes := []

/-- What a run comes to that prints lines before all else: a line that is not taken stops it. -/
def afterPrinting (surroundings : Surroundings) (lines : List Utf16) (run : Run) : Run :=
  match lines.findSome? surroundings.output.refusal? with
  | some fault => surroundings.stop (.text fault)
  | none => run

/-- Prints lines and ends. -/
def finish (surroundings : Surroundings) (exit : Nat) (lines : List Utf16)
    (messages : List Message) : Run :=
  surroundings.afterPrinting lines (surroundings.conclude exit lines messages)

/-! ## Scanning -/

def scanSpeaker : String := "testcopilot.commands.scan"

/-- What is said when a scorecard could not be written. -/
def scorecardMessages (path : String) (fault : Fault) : Except Fault (List Message) :=
  match fault with
  | .imagingMissing => .ok [
    .log ⟨scanSpeaker, "skipped: could not import Pillow for the scorecard " ++
      s!"(ModuleNotFoundError: {missingImaging})"⟩,
    .warning "Scorecard skipped: install the 'scorecard' extra (Pillow)."]
  | .disk fault => .ok [
    .log ⟨scanSpeaker,
      s!"skipped: could not write scorecard to {path} ({fault.cause.kind}: {fault.message})"⟩,
    .warning s!"Could not write scorecard to {path}: {fault.message}"]
  | fault => .error fault

/-- The path for scorecards in the settings. -/
def scorecardPath (settings : Settings) : Utf16 :=
  match settings.value .scorecardPath with
  | .text path => if path.isEmpty then Setting.defaultScorecardPath else path
  | _ => Setting.defaultScorecardPath

/-- Writes a scorecard and ends the run of a scan whose lines have been printed. Nothing is drawn for
a path that cannot be encoded. -/
def finishWithScorecard (surroundings : Surroundings) (exit : Nat) (lines : List Utf16)
    (messages : List Message) (settings : Settings) (codebase : Codebase) : Run :=
  match surroundings.imaging, (scorecardPath settings).halves? with
  | some _, some fault => surroundings.stop (.text fault)
  | _, _ =>
    let path := (scorecardPath settings).shown
    let written := Scorecard.write surroundings.disk surroundings.imaging codebase path
    let after := { surroundings with disk := written.disk }
    let said : Except Fault (List Message) := match written.path with
      | .ok path => do return [.status s!"  Scorecard saved to {← written.disk.shown path}"]
      | .error fault => scorecardMessages path fault
    match said with
    | .ok said => { after.conclude exit lines (messages ++ said) with strokes := written.strokes }
    | .error fault => after.stop fault

/-- How much of a report the settings ask for. -/
def detailOf (settings : Settings) : Detail where
  explain := (settings.value .explain).isTrue
  fileSummary := (settings.value .fileSummary).isTrue
  codebase := (settings.value .codebase).isTrue

/-- The report format that the settings name; anything unknown is shown on the console. -/
def formatOf (settings : Settings) : ReportFormat :=
  (ReportFormat.all.find? fun format =>
    (settings.value .format).alike (.text format.name)).getD .console

def runScan (surroundings : Surroundings) (settings : Settings) (messages : List Message)
    (request : ScanRequest) : Run :=
  if !surroundings.canParse then
    surroundings.finish 1 [] <| messages ++
      [.error "tree-sitter-language-pack is not installed; cannot parse test files."]
  else match settings.merge request.overrides with
    | .error fault => surroundings.stop fault
    | .ok settings =>
      if !surroundings.disk.isThere request.path then
        surroundings.finish 1 [] (messages ++ [.error s!"Path not found: {request.path}"])
      else
        let format := formatOf settings
        let scanned : Except Fault (List Visit × ScanReport × List Utf16) := do
          let visits ← visitAll surroundings.disk surroundings.grammars request.path
            (.table settings)
          let report ← ScanReport.ofVisits visits
          let lines ←
            if format.showsJson then do pure [← report.document]
            else report.render surroundings.terminal (detailOf settings)
          return (visits, report, lines.map Utf16.ofString)
        match scanned with
        | .error fault => surroundings.stop fault
        | .ok (visits, report, lines) =>
          let exit := if report.hasFailures then 1 else 0
          let messages := messages ++ [.status s!"  Scanning {request.path} ..."] ++
            (scanLog visits).map Message.log
          surroundings.afterPrinting lines <|
            if format.drawsScorecard then
              surroundings.finishWithScorecard exit lines messages settings report.codebase
            else surroundings.conclude exit lines messages

/-! ## Checkers -/

def checkerGrid (settings : Settings) : Except Fault Grid := do
  let rows ← Checker.all.mapM fun checker => do
    let enabled ← checker.isEnabled (.table settings)
    return [checker.key, checker.framework.name, if enabled then "yes" else "no",
      checker.description]
  return ⟨["Key", "Framework", "Enabled", "Description"], rows⟩

def runCheckers (surroundings : Surroundings) (settings : Settings) (messages : List Message) :
    Run :=
  let lines : Except Fault (List String) := do
    let grid ← (← checkerGrid settings).render surroundings.terminal []
    return surroundings.terminal.paint .bold "\n  Registered checkers\n" :: grid ++ [""]
  match lines with
  | .ok lines => surroundings.finish 0 (lines.map Utf16.ofString) messages
  | .error fault => surroundings.stop fault

/-! ## Settings -/

/-- A setting with its value and, below it, what it is for. -/
def settingLines (terminal : Terminal) (settings : Settings) (setting : Setting) :
    Except Fault (List Utf16) := do
  let value := settings.value setting
  let mark := if value.alike setting.default then terminal.paint .dim " (default)" else ""
  let name := Text.padRight 20 setting.name
  let blank := Text.padRight 20 ""
  return [↑s!"  {name} " ++ (← Settings.display value) ++ ↑mark,
    ↑(terminal.paint .dim s!"  {blank} {setting.description}")]

def runShow (surroundings : Surroundings) (settings : Settings) (messages : List Message) : Run :=
  let lines : Except Fault (List Utf16) := do
    let parts ← Setting.all.mapM (settingLines surroundings.terminal settings)
    return ↑(surroundings.terminal.paint .bold "\n  TestCopilot Configuration\n") ::
      parts.flatten ++ [↑""]
  match lines with
  | .ok lines => surroundings.finish 0 lines messages
  | .error fault => surroundings.stop fault

/-- How a refused edit is reported: a name in quotes, an unfit value as it is, and in both cases
without quotes at the ends. -/
def refusal (fault : EditFault) : String :=
  let text := if fault.isUnknown then Text.quoted fault.message else fault.message
  String.ofList (Text.stripBy (fun c => c == '\'' || c == '"') text.toList)

/-- Carries out an edit, saves the settings, and says what has been done. -/
def runEdit (surroundings : Surroundings) (path : String) (messages : List Message)
    (edited : Except Fault Settings) (report : Settings → Except Fault Utf16) : Run :=
  match edited with
  | .error (.edit fault) => surroundings.finish 1 [] (messages ++ [.error (refusal fault)])
  | .error fault => surroundings.stop fault
  | .ok settings =>
    let (disk, saved) := settings.save surroundings.disk path
    let after := { surroundings with disk }
    match saved, report settings with
    | .error fault, _ | .ok (), .error fault => after.stop fault
    | .ok (), .ok text => after.finish 0 [surroundings.terminal.paintText .green text] messages

/-- The value of a setting or of a single checker's flag, as text. -/
def shownValue (settings : Settings) (key : String) : Except Fault Utf16 :=
  match Settings.flagOf? key with
  | some checker => do
    let flags := (settings.get? Setting.checkers.key).getD .null
    ((← flags.field? checker).getD .null).plainText
  | none => Settings.display ((settings.get? key).getD .null)

def setReport (key : String) (settings : Settings) : Except Fault Utf16 := do
  return ↑s!"  Set {key} = " ++ (← shownValue settings key)

def unsetReport (key : String) (settings : Settings) : Except Fault Utf16 := do
  return ↑s!"  Reset {key} to default (" ++ (← shownValue settings key) ++ ↑")"

/-! ## All commands -/

def runInvocation (surroundings : Surroundings) (invocation : Invocation) : Run :=
  let path := invocation.settingsPath.getD surroundings.defaultSettingsPath
  match Settings.load surroundings.nesting surroundings.disk path with
  | .error fault => surroundings.stop fault
  | .ok (settings, notices) =>
    let messages := notices.flatMap Settings.Notice.messages
    match invocation.command with
    | .scan request => surroundings.runScan settings messages request
    | .checkers => surroundings.runCheckers settings messages
    | .showSettings => surroundings.runShow settings messages
    | .setSetting key value =>
      surroundings.runEdit path messages (settings.set key value) (setReport key)
    | .unsetSetting key =>
      surroundings.runEdit path messages (settings.unset key) (unsetReport key)

/-- Runs a command line. -/
def run (surroundings : Surroundings) (arguments : List String) : Run :=
  match Invocation.ofList arguments with
  | .error .help => ⟨.usage 0, surroundings.disk, []⟩
  | .error .misuse => ⟨.usage 2, surroundings.disk, []⟩
  | .ok invocation => surroundings.runInvocation invocation

end Surroundings

end FlakeLint
