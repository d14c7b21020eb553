-- SUMMARY: Fixed waits: `cy.wait(1000)` and `page.waitForTimeout(1000)`.
import FlakeLint.Analysis.Retry
import FlakeLint.Analysis.Wait
import FlakeLint.TestFile

/-!
# Fixed waits

A test that pauses for a fixed time is slow where the app is fast and fails where
the app is slow. Short waits are let pass, and so are waits with an excuse on
their line; in Cypress tests also those inside retry code.
-/

namespace FlakeLint.FixedWait

/-! ## Cypress -/

/-- What is wrong with a fixed wait. Where a comment explains it, the advice goes without the hint how
to switch the report off. -/
def cypressFinding (delay : String) (explained : Bool) : Finding where
  message :=
    s!"Hardcoded delay of {delay}ms — using fixed waits causes flakiness and unreliable tests."
  severity := .high
  explanation := some <|
    "Using fixed delays like this can cause flakiness. If the app responds faster " ++
    "or slower than expected, the test may pass or fail unpredictably."
  fix := some <|
    if explained then
      "Consider using cy.get(...).should(...) to wait for the animation/element " ++
      "state instead of a fixed delay."
    else
      "Replace with a condition-based wait like cy.get(...).should(...) or use " ++
      "cy.intercept() to wait for a specific network call. Or add " ++
      "'// testcopilot-disable' to suppress this warning if the wait is intentional."

/-- The issue of a call `cy.wait(delay)`, unless the wait is short, excused, or part of retry code. -/
def cypressIssues (file : TestFile) (call : Cursor) (delay : Number) :
    Except Fault (List Issue) := do
  if (Number.int Wait.reportedFrom).le delay then
    let line := lineText file.lines (← call.node.startLine)
    if Wait.isExempt line delay || Retry.covers libraryObject call then return []
    let finding := cypressFinding (← delay.text) (Wait.isExplained line)
    return [file.issueAt finding call.node]
  else return []

/-! ## Playwright -/

/-- The object whose methods drive the page under test. -/
def pageObject : String := "page"

def playwrightFinding (delay : String) (explained : Bool) : Finding where
  message :=
    s!"page.waitForTimeout({delay}) pauses for a fixed {delay}ms — fixed waits " ++
    "make Playwright tests flaky."
  severity := .high
  explanation := some <|
    "A fixed timeout ignores what the page is doing. If the app is slower " ++
    "than the pause the test fails; if it is faster the test just wastes time."
  fix := some <|
    if explained then
      "Wait for the element state instead, e.g. await expect(locator).toBeVisible()."
    else
      "Replace with a web-first assertion like await expect(locator).toBeVisible() " ++
      "or page.waitForResponse() for a specific network call. Or add " ++
      "'// testcopilot-disable' to suppress this warning if the wait is intentional."

/-- The issue of a call `page.waitForTimeout(delay, …)`, unless the wait is short or excused. A delay
that is no number at all counts as long. -/
def playwrightIssues (file : TestFile) (call : Cursor) : Except Fault (List Issue) := do
  if !call.node.isCallOf pageObject "waitForTimeout" then return []
  match call.node.arguments.head?.bind Node.numberValue? with
  | none => return []
  | some delay =>
    if delay.lt (.int Wait.reportedFrom) then return []
    let line := lineText file.lines (← call.node.startLine)
    if Wait.isExempt line delay then return []
    let finding := playwrightFinding (← delay.text) (Wait.isExplained line)
    return [file.issueAt finding call.node]

end FlakeLint.FixedWait
