-- SUMMARY: Waits for aliases: undeclared ones, and declared ones that nothing follows up.
import FlakeLint.Analysis.Wait
import FlakeLint.TestFile

/-!
# Waits for aliases

`cy.wait('@users')` needs `.as('users')` somewhere in the file. A declared alias
still says nothing about what the app does with the response, unless the request
is a background one or the wait is one of a run.
-/

namespace FlakeLint.AliasWait

def undeclaredFinding (waited : String) : Finding where
  message :=
    s!"cy.wait('{waited}') used without cy.intercept() — this wait is fragile " ++
    "and may break if the request doesn't fire."
  severity := .high
  explanation := some <|
    "Waiting on an alias that isn't defined with cy.intercept() makes your " ++
    "test fragile. If the request never happens, the test may hang or fail unpredictably."
  fix := some <|
    "Add cy.intercept(...) before this line to declare the alias properly, " ++
    "or switch to a UI-based wait like cy.get(...).should(...)."

def declaredFinding (waited : String) : Finding where
  message :=
    s!"cy.wait('{waited}') used — alias is defined, but should be followed by a UI " ++
    "assertion to confirm the app reacted as expected."
  severity := .medium
  explanation := some <|
    "This wait relies on a declared alias, which helps, but doesn't confirm " ++
    "the app actually responded correctly."
  fix := some <|
    "Add a UI assertion after this wait to verify the app reacted correctly " ++
    "— e.g. cy.get(...).should(...)."

/-- The issue of a call `cy.wait('@alias')`, given the aliases that the file declares. -/
def issues (file : TestFile) (declared : List String) (call : Cursor) (waited : String) :
    Except Fault (List Issue) := do
  if !declared.contains waited then
    return [file.issueAt (undeclaredFinding waited) call.node]
  if Names.isBackgroundAlias waited then return []
  if ← Wait.isConsecutive file.cursor (← call.node.startLine) libraryObject then return []
  return [file.issueAt (declaredFinding waited) call.node]

end FlakeLint.AliasWait
