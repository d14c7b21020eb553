-- SUMMARY: User actions that nothing verifies afterwards.
import FlakeLint.Analysis.Action
import FlakeLint.TestFile

/-!
# Unverified actions

After a user action some assertion should follow: in the same chain, on one of
the next lines, or on a related selector close by.
-/

namespace FlakeLint.UnverifiedAction

/-- How many lines below an action an assertion of any kind verifies it. -/
def followUpWindow : Int := 10

def finding (command : String) : Finding where
  message :=
    s!"User action \"cy.{command}()\" is not followed by a check to confirm the app responded."
  severity := .medium
  explanation := some <|
    s!"The test simulates a user interaction using \"cy.{command}()\", but it " ++
    "doesn't verify whether the app responded correctly. Without a follow-up " ++
    "check, the test might pass even if the application fails to react — " ++
    "leading to false confidence in test results."
  fix := some <|
    s!"After calling \"cy.{command}()\", add a UI assertion such as " ++
    "\"cy.get(...).should(...)\" to confirm the expected change happened. " ++
    "This helps ensure the app responded as intended."

/-- Does an assertion stand on one of the lines after `line`? -/
def isFollowedUp (assertionLines : List Nat) (line : Int) : Bool :=
  assertionLines.any fun assertion => line < assertion && assertion ≤ line + followUpWindow

/-- Is an action verified later on, or excused from it? -/
def isVerified (file : TestFile) (assertionLines : List Nat) (site : ActionSite) :
    Except Fault Bool := do
  if isFollowedUp assertionLines site.line then return true
  let related ← match site.selector with
    | some selector =>
      if selector = "" then pure false else Assertion.hasRelated file.cursor selector site.line
    | none => pure false
  return related || Setup.excuses site.command site.selector file.lines site.line

/-- The issues of the actions found in a file, given the lines of its assertions. -/
def issues (file : TestFile) (assertionLines : List Nat) (sites : List ActionSite) :
    Except Fault (List Issue) := do
  let unverified ← sites.filterM fun site => do
    if site.isAsserted then return false
    return !(← isVerified file assertionLines site)
  return unverified.map fun site =>
    (finding site.command).issue file.lines (some site.location)

end FlakeLint.UnverifiedAction
