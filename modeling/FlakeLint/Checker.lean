-- SUMMARY: The checkers: what each looks for, and the rating it gives a file.
import FlakeLint.Analysis.TestBlock
import FlakeLint.Output
import FlakeLint.Problem.AliasWait
import FlakeLint.Problem.BrokenChain
import FlakeLint.Problem.FixedWait
import FlakeLint.Problem.UnverifiedAction
import FlakeLint.Score

/-!
# Checkers

A checker belongs to a test framework. It collects issues from a file in passes,
charges them to the tests of the file, and rates the file.
-/

namespace FlakeLint

inductive Framework where
  | cypress
  | playwright
deriving DecidableEq, Repr

def Framework.name : Framework → String
  | .cypress => "cypress"
  | .playwright => "playwright"

inductive Checker where
  /-- Waits, actions and chains in Cypress tests. -/
  | asyncReliability
  /-- Fixed timeouts in Playwright tests. -/
  | pageTimeouts
deriving DecidableEq, Repr

namespace Checker

/-- All checkers, in the order in which they run and report. -/
def all : List Checker :=
  [.asyncReliability, .pageTimeouts]

def framework : Checker → Framework
  | .asyncReliability => .cypress
  | .pageTimeouts => .playwright

/-- The name of a checker in settings and reports. -/
def key : Checker → String
  | .asyncReliability => "raceConditionAnalysis"
  | .pageTimeouts => "playwrightHardWaits"

def description : Checker → String
  | .asyncReliability =>
    "Detects flaky wait patterns (cy.wait, .wait('@')) and async actions " ++
    "missing follow-up assertions."
  | .pageTimeouts => "Detects fixed page.waitForTimeout() pauses in Playwright tests."

def ofKey? (key : String) : Option Checker :=
  all.find? fun checker => checker.key = key

/-! ## Passes -/

/-- The issue of one call of `cy.wait` with a single argument: a number is a fixed wait, a string that
begins with `@` an alias. -/
def waitIssues (file : TestFile) (declared : List String) (call : Cursor) :
    Except Fault (List Issue) :=
  if call.node.isCallOf libraryObject "wait" then
    match (Wait.soleArgument? call.node).bind Node.numberValue? with
    | some delay => FixedWait.cypressIssues file call delay
    | none =>
      match Wait.alias? libraryObject call.node with
      | some waited => AliasWait.issues file declared call waited
      | none => .ok []
  else .ok []

/-- The issues about waits, in source order. Aliases count wherever they are declared. -/
def waitPass (file : TestFile) : Except Fault (List Issue) :=
  file.issuesOfCalls (waitIssues file (Wait.declaredAliases file.cursor))

/-- The issues of a file, pass by pass. -/
def issues (file : TestFile) : Checker → Except Fault (List Issue)
  | .asyncReliability => do
    let assertionLines ← Assertion.lines file.cursor
    let sites ← ActionSite.find file.parsed libraryObject
    let waits ← waitPass file
    let actions ← UnverifiedAction.issues file assertionLines sites
    return waits ++ actions ++ BrokenChain.issues file
  | .pageTimeouts => file.issuesOfCalls (FixedWait.playwrightIssues file)

/-! ## Ratings -/

/-- The functions that define a test. -/
def testNames : Checker → List String
  | .asyncReliability => ["it"]
  | .pageTimeouts => ["test", "it"]

def praise : Checker → String
  | .asyncReliability =>
    "✅ It shows strong async practices — using retryable assertions or intercepts " ++
    "instead of fixed waits."
  | .pageTimeouts => "✅ It waits on page state rather than fixed timeouts."

/-- What a summary says of a file with so many issues. -/
def criticism (issueCount : Nat) : Checker → String
  | .asyncReliability => String.intercalate "\n" [
    "⚠️ It contains patterns that may cause flakiness, such as hardcoded waits, " ++
    "missing intercepts, or UI actions without follow-up checks.",
    "",
    "These issues mean the tests might pass even when the app is broken, or fail " ++
    "when the app is actually working — leading to wasted time debugging false results.",
    "",
    "Improving these tests will make them more stable, trustworthy, and maintainable " ++
    "for both developers and QA teams."]
  | .pageTimeouts =>
    s!"⚠️ It pauses for fixed timeouts {issueCount} time(s). Prefer web-first " ++
    "assertions, which retry until the page is ready."

/-- The sentence with grade and score. -/
def rating (grade : Grade) (scoreText : String) : Checker → String
  | .asyncReliability =>
    s!"This test file was rated {grade.name} for async reliability (score: {scoreText})."
  | .pageTimeouts =>
    s!"This Playwright test file was rated {grade.name} for wait reliability (score: {scoreText})."

def summary (checker : Checker) (issueCount : Nat) (grade : Grade) (score : Option Number) :
    Except Fault String := do
  let verdict := if issueCount = 0 then checker.praise else checker.criticism issueCount
  return String.intercalate "\n" [checker.rating grade (← Score.text score), "", verdict]

/-- The tests of a file, as the checker counts them. -/
def blocks (file : TestFile) (checker : Checker) : Except Fault (List TestBlock) :=
  TestBlock.find checker.testNames file.cursor

/-- Rates a file by its issues and test blocks. -/
def score {α : Type} [Quantity α] (issues : List Issue) (blocks : List TestBlock) :
    Except Fault α :=
  Score.ofIssues (issues.map Issue.severity) blocks.length (some (TestBlock.buckets blocks issues))

/-- The full result of a checker for a file. -/
def analyze (checker : Checker) (file : TestFile) : Except Fault Output := do
  let issues ← checker.issues file
  let blocks ← checker.blocks file
  let score : Number ← Checker.score issues blocks
  let grade := Score.grade score
  return {
    checker := checker.key
    path := file.path
    issues
    grade
    score := some score
    summary := ← checker.summary issues.length grade (some score) }

end Checker

end FlakeLint
