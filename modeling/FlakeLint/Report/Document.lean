-- SUMMARY: The report of a scan as a JSON document.
import FlakeLint.Json.Writer
import FlakeLint.Scan

/-!
# Report documents

What is unknown about a location or an issue is left out; a missing score is
null.
-/

namespace FlakeLint

/-- A named entry, if there is a value for it. -/
def entryOf? {α : Type} (key : String) (toJson : α → Json) (value : Option α) :
    List (Utf16 × Json) :=
  (value.map fun value => (↑key, toJson value)).toList

def Json.ofInt (n : Int) : Json :=
  .number (.int n)

def Json.ofNat (n : Nat) : Json :=
  .number (.int n)

def Location.toJson (location : Location) : Json :=
  .table <| ("line", Json.ofInt location.line) :: (entryOf? "column" Json.ofInt location.column ++
    entryOf? "end_line" Json.ofInt location.endLine ++
    entryOf? "end_column" Json.ofInt location.endColumn)

def Issue.toJson (issue : Issue) : Json :=
  .table <| ("message", .text issue.message) :: ("severity", .text issue.severity.name) ::
    (entryOf? "location" Location.toJson issue.location ++
      entryOf? "context_code" Json.ofString issue.context ++
      entryOf? "plain_explanation" Json.ofString issue.explanation ++
      entryOf? "fix" Json.ofString issue.fix)

def Output.toJson (output : Output) : Json :=
  .table [
    ("checker_name", .text output.checker),
    ("file_path", .text output.path),
    ("issues", .list (output.issues.map Issue.toJson)),
    ("file_score", .text output.grade.name),
    ("numeric_score", (output.score.map Json.number).getD .null),
    ("plain_summary", .text output.summary)]

def Failure.toJson (failure : Failure) : Json :=
  .table [("file_path", .text failure.path), ("reason", .text failure.reason)]

def Tally.toJson (tally : Tally) : Json :=
  .table [("file_count", Json.ofNat tally.files), ("issue_count", Json.ofNat tally.issues)]

namespace Codebase

def entries (codebase : Codebase) : List (Utf16 × Json) := [
  ("overall_score", .number codebase.score),
  ("overall_grade", .text codebase.grade.name),
  ("total_issues", Json.ofNat codebase.issueCount),
  ("files_analyzed", Json.ofNat codebase.fileCount),
  ("per_checker_breakdown",
    .table (codebase.tallies.map fun (key, tally) => (↑key, tally.toJson))),
  ("plain_summary", .text codebase.summary),
  ("file_results", .list (codebase.outputs.map Output.toJson)),
  ("failures", .list (codebase.failures.map Failure.toJson))]

def toJson (codebase : Codebase) : Json :=
  .table codebase.entries

end Codebase

namespace ScanReport

def toJson (report : ScanReport) : Json :=
  .table <| ("files_found", Json.ofNat report.filesFound) ::
    ("skipped", .list (report.skipped.map Json.ofString)) :: report.codebase.entries

/-- The document as it is printed. -/
def document (report : ScanReport) : Except Fault String :=
  report.toJson.document .unicode

end ScanReport

end FlakeLint
