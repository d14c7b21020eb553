-- SUMMARY: The results of all files rolled up into the figures of a code base.
import FlakeLint.Output
import FlakeLint.Score

/-!
# Code bases

The mean score of all results with its grade, and counts of files and issues,
in all and per checker. A file that several checkers looked at counts once.
-/

namespace FlakeLint

/-- How many results of a checker hold issues, and how many issues in all. -/
structure Tally where
  files : Nat
  issues : Nat
deriving DecidableEq, Repr

structure Codebase where
  score : Number
  grade : Grade
  outputs : List Output
  issueCount : Nat
  fileCount : Nat
  tallies : Table String Tally
  summary : String
  failures : List Failure

namespace Codebase

def summaryText (grade : Grade) (score : Number) (fileCount flaggedCount : Nat) :
    Except Fault String := do
  let verdict :=
    if flaggedCount = 0 then "✅ All files show strong async practices and reliability."
    else
      s!"⚠️ {flaggedCount} file(s) contain patterns that may cause flakiness " ++
      "or unreliable results."
  let scoreText ← score.textToTenth
  return String.intercalate "\n" [
    s!"Codebase reliability rating: {grade.name} (score: {scoreText})",
    "",
    s!"Analyzed {fileCount} test files.",
    verdict,
    "",
    "Improving flagged files will make your test suite more stable and " ++
    "trustworthy for the whole team."]

/-! ## Counts -/

def issueCountOf (outputs : List Output) : Nat :=
  (outputs.flatMap Output.issues).length

/-- The paths that occur, each once. -/
def filesOf (outputs : List Output) : List String :=
  (outputs.map Output.path).eraseDups

/-- The paths with an issue, each once. -/
def flaggedFilesOf (outputs : List Output) : List String :=
  filesOf (outputs.filter fun output => !output.issues.isEmpty)

/-- Adds a result to the tally of its checker. -/
def tally (tallies : Table String Tally) (output : Output) : Table String Tally :=
  let old := (tallies.get? output.checker).getD ⟨0, 0⟩
  let new := if output.issues.isEmpty then old
    else ⟨old.files + 1, old.issues + output.issues.length⟩
  tallies.put output.checker new

/-- The tallies of all checkers that occur, in the order in which they first do. -/
def talliesOf (outputs : List Output) : Table String Tally :=
  outputs.foldl tally []

/-! ## Rolling up -/

def ofOutputs (outputs : List Output) (failures : List Failure) : Except Fault Codebase := do
  let score ← Score.average (outputs.map Output.score)
  let grade := Score.grade score
  let fileCount := (filesOf outputs).length
  return {
    score
    grade
    outputs
    issueCount := issueCountOf outputs
    fileCount
    tallies := talliesOf outputs
    summary := ← summaryText grade score fileCount (flaggedFilesOf outputs).length
    failures }

end Codebase

end FlakeLint
