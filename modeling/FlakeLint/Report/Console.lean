-- SUMMARY: The report of a scan as text.
import FlakeLint.Report.Grid
import FlakeLint.Scan
import FlakeLint.Text.Capitals

/-!
# Console reports

One part per checked file with its score and issues, then what could not be
analysed, what was skipped, and the figures of the code base. Reports are lists
of lines; a line may hold line breaks of its own.
-/

namespace FlakeLint

/-! ## Issues -/

def Severity.style : Severity → Style
  | .veryHigh | .high => .red
  | .medium => .yellow
  | .low => .cyan
  | .info | .other _ => .dim

/-- A number that a location holds, as text. -/
def Location.text (location : Location) : String :=
  let column := match location.column with
    | some column => s!", Col {column}"
    | none => ""
  s!"Line {location.line}{column}"

/-- An explanation under a word that says what it is; nothing for an empty one. -/
def remark (word : String) (text : Option String) : List String :=
  match text with
  | some text => if text = "" then [] else [Text.indent "      " s!"{word}: {text}"]
  | none => []

def Issue.render (terminal : Terminal) (explain : Bool) (issue : Issue) : List String :=
  let name := Text.upper issue.severity.name
  let tag := terminal.paint issue.severity.style s!"[{name}]"
  let place := match issue.location with
    | some location => [terminal.paint .dim s!"      {location.text}"]
    | none => []
  let context := match issue.context with
    | some line => if line = "" then [] else [terminal.paint .cyan s!"      > {line}"]
    | none => []
  let remarks := if explain then remark "Why" issue.explanation ++ remark "Fix" issue.fix else []
  [s!"    {tag} {issue.message}"] ++ place ++ context ++ remarks

/-! ## Files -/

/-- How much a report shows. -/
structure Detail where
  explain : Bool
  fileSummary : Bool
  codebase : Bool
deriving DecidableEq, Repr

namespace Score

/-- Good scores are green, middling ones yellow, all others red. No score counts as good. -/
def style : Option Number → Style
  | none => .green
  | some score =>
    if (Number.int 90).le score then .green
    else if (Number.int 60).le score then .yellow
    else .red

end Score

def Output.render (terminal : Terminal) (detail : Detail) (output : Output) :
    Except Fault (List String) := do
  let score := terminal.paint (Score.style output.score) (← Score.text output.score)
  let issues :=
    if output.issues.isEmpty then [terminal.paint .green "    No issues found."]
    else output.issues.flatMap (Issue.render terminal detail.explain)
  let summary := if detail.fileSummary then ["", Text.indent "    " output.summary] else []
  return [terminal.paint .bold s!"  {output.path}  [{output.checker}]",
      s!"    Score: {score} ({output.grade.name})"] ++ issues ++ summary ++ [""]

/-! ## Scans -/

def failureLines (terminal : Terminal) (failures : List Failure) : List String :=
  if failures.isEmpty then []
  else
    let head := terminal.paint .red s!"  {failures.length} file(s) could not be analysed:"
    head :: failures.map (fun failure => s!"    {failure.path}: {failure.reason}") ++ [""]

def skippedLines (terminal : Terminal) (skipped : List String) : List String :=
  if skipped.isEmpty then []
  else
    [terminal.paint .dim s!"  Skipped {skipped.length} file(s) with no recognised framework.", ""]

/-- The tallies of all checkers, sorted by name. -/
def tallyGrid (tallies : Table String Tally) : Grid where
  heads := ["Checker", "Files flagged", "Issues"]
  rows := (tallies.mergeSort fun x y => x.1 ≤ y.1).map fun (key, tally) =>
    [key, toString tally.files, toString tally.issues]

def codebaseLines (terminal : Terminal) (codebase : Codebase) : Except Fault (List String) := do
  if codebase.outputs.isEmpty then return []
  let grid ← (tallyGrid codebase.tallies).render terminal []
  return grid ++ ["", Text.indent "  " codebase.summary, ""]

def ScanReport.render (terminal : Terminal) (detail : Detail) (report : ScanReport) :
    Except Fault (List String) := do
  let codebase := report.codebase
  if codebase.outputs.isEmpty && codebase.failures.isEmpty then
    return [terminal.paint .yellow "\n  No test files analysed.\n"]
  let head := terminal.paint .bold
    s!"\n  Test reliability report ({report.filesFound} file(s) found)\n"
  let files ← codebase.outputs.mapM (Output.render terminal detail)
  let figures ← if detail.codebase then codebaseLines terminal codebase else pure []
  return head :: files.flatten ++ failureLines terminal codebase.failures ++
    skippedLines terminal report.skipped ++ figures

end FlakeLint
