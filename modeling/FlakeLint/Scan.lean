-- SUMMARY: Scanning a project: every test file is read, parsed, checked, and accounted for.
import FlakeLint.Checker.Selection
import FlakeLint.Codebase
import FlakeLint.Discovery
import FlakeLint.Settings.File
import FlakeLint.Syntax.Parse

/-!
# Scanning

Each file that is found gets one verdict: it cannot be read, it does not parse,
no checker runs on it, or it has been analysed. The figures of the scan are put
together from the verdicts, so no file can be lost or counted twice.
-/

namespace FlakeLint

/-! ## One source -/

/-- What the analysis of a source comes to. -/
inductive Analysis where
  /-- No checker runs on sources of this framework. -/
  | skipped (framework : Option Framework)
  | checked (result : ParseResult) (outputs : List (Checker × Output))

namespace Analysis

def outputs : Analysis → List Output
  | .skipped _ => []
  | .checked _ outputs => outputs.map Prod.snd

/-- Runs the checkers of a source's framework on one tree. A source that no checker runs on is not
parsed. -/
def ofSource (parsers : Parsers) (path content : String) (settings : Json) :
    Except Fault Analysis := do
  let framework := Framework.detect? path content
  let checkers ← Checker.running settings framework
  if checkers.isEmpty then return .skipped framework
  let result ← parsers.parse path content none
  let file := TestFile.ofContent path content result.parsed
  let outputs ← checkers.mapM fun checker => do return (checker, ← checker.analyze file)
  return .checked result outputs

end Analysis

/-! ## One file -/

inductive Verdict where
  | unreadable (cause : ReadCause)
  | malformed (failure : ParseFailure)
  | analyzed (analysis : Analysis)

/-- A file of a scan: the path it was found at, the path it is reported under, what became of it. -/
structure Visit where
  path : String
  shownPath : String
  verdict : Verdict

namespace Visit

def outputs (visit : Visit) : List Output :=
  match visit.verdict with
  | .analyzed analysis => analysis.outputs
  | _ => []

def failure? (visit : Visit) : Option Failure :=
  match visit.verdict with
  | .unreadable cause => some ⟨visit.shownPath, s!"could not read file: {cause.message}"⟩
  | .malformed failure => some ⟨visit.shownPath, failure.message⟩
  | .analyzed _ => none

def isSkipped (visit : Visit) : Bool :=
  match visit.verdict with
  | .analyzed (.skipped _) => true
  | _ => false

end Visit

/-- Visits a file. A source that does not parse is a verdict; other faults stop the scan, also one in
working out the path that is shown. -/
def visitFile (disk : Disk) (grammars : List String) (settings : Json) (path : String) :
    Except Fault Visit := do
  let shownPath ← disk.shown path
  match disk.read path with
  | .error cause => return ⟨path, shownPath, .unreadable cause⟩
  | .ok (file, text) =>
    match Analysis.ofSource ⟨grammars, file.outlines⟩ shownPath (String.ofList text) settings with
    | .ok analysis => return ⟨path, shownPath, .analyzed analysis⟩
    | .error (.parse failure) => return ⟨path, shownPath, .malformed failure⟩
    | .error fault => throw fault

/-! ## All files -/

/-- The figures of a scan. -/
structure ScanReport where
  filesFound : Nat
  /-- The files that no checker runs on. -/
  skipped : List String
  codebase : Codebase

namespace ScanReport

def hasFailures (report : ScanReport) : Bool :=
  !report.codebase.failures.isEmpty

def ofVisits (visits : List Visit) : Except Fault ScanReport := do
  return {
    filesFound := visits.length
    skipped := (visits.filter Visit.isSkipped).map Visit.shownPath
    codebase := ← Codebase.ofOutputs (visits.flatMap Visit.outputs)
      (visits.filterMap Visit.failure?) }

end ScanReport

/-- Visits every test file at or below a path, in order. -/
def visitAll (disk : Disk) (grammars : List String) (path : String) (settings : Json) :
    Except Fault (List Visit) := do
  let settings := settings.orElse (.table [])
  let exclude := (← settings.field? Setting.exclude.name).getD .null
  let files ← Discovery.testFiles disk path exclude
  files.mapM (visitFile disk grammars settings)

def scan (disk : Disk) (grammars : List String) (path : String) (settings : Json) :
    Except Fault ScanReport := do
  ScanReport.ofVisits (← visitAll disk grammars path settings)

end FlakeLint
