-- SUMMARY: What the log tells of a scan.
import FlakeLint.Scan

/-!
# The log of a scan

Log lines follow from the verdicts: parsing, the passes of each checker, the
file, and at the end the whole scan.
-/

namespace FlakeLint

namespace ParseFailure

/-- A parser that is missing is logged when it is asked for. -/
def log (failure : ParseFailure) : List LogLine :=
  match failure.cause with
  | .unavailable grammar =>
    [⟨"testcopilot.engine.treesitter._parse",
      s!"tree-sitter init failed for {grammar}: {missingGrammar grammar}"⟩]
  | .malformed _ => []

end ParseFailure

def ParseResult.log (result : ParseResult) (path : String) : List LogLine :=
  if result.retried then
    [⟨"testcopilot.engine.treesitter._parse", s!"{path} parsed with {result.parsed.grammar} grammar"⟩]
  else []

/-- The score of an output, as the log writes it. -/
def Output.scoreText (output : Output) : String :=
  match output.score with
  | some (.real d) => d.text
  | some (.int n) => toString n
  | none => "None"

/-- What a checker logs of one file. -/
def Checker.log (parsed : Parsed) (output : Output) : Checker → List LogLine
  | .asyncReliability =>
    let declared := Wait.declaredAliases parsed.cursor
    let tests := (TestBlock.bodies Checker.asyncReliability.testNames parsed.cursor).length
    [⟨"testcopilot.checkers.cypress._waits", s!"collected {declared.length} alias(es)"⟩,
      ⟨"testcopilot.checkers.cypress.race_conditions",
        s!"{output.path}: {output.issues.length} issue(s) across {tests} test(s), " ++
        s!"score {output.scoreText}"⟩]
  | .pageTimeouts =>
    [⟨"testcopilot.checkers.playwright.hard_waits",
      s!"{output.path}: {output.issues.length} fixed timeout(s), score {output.scoreText}"⟩]

def Analysis.log (path : String) : Analysis → List LogLine
  | .skipped framework =>
    let name := (framework.map Framework.name).getD "None"
    [⟨"testcopilot.scan", s!"no checkers for {path} (framework={name})"⟩]
  | .checked result outputs =>
    result.log path ++ outputs.flatMap fun (checker, output) => checker.log result.parsed output

def Visit.log (visit : Visit) : List LogLine :=
  match visit.verdict with
  | .unreadable cause =>
    [⟨"testcopilot.scan", s!"read failed for {visit.path}: {cause.message}"⟩]
  | .malformed failure =>
    failure.log ++ [⟨"testcopilot.scan", s!"parse failed for {visit.path}: {failure.message}"⟩]
  | .analyzed analysis => analysis.log visit.shownPath

/-- The log of all visits, with the counts at the end. -/
def scanLog (visits : List Visit) : List LogLine :=
  let results := (visits.flatMap Visit.outputs).length
  let failures := (visits.filterMap Visit.failure?).length
  let skipped := (visits.filter Visit.isSkipped).length
  visits.flatMap Visit.log ++
    [⟨"testcopilot.scan",
      s!"scanned {visits.length} file(s): {results} result(s), {failures} failure(s), " ++
      s!"{skipped} skipped"⟩]

end FlakeLint
