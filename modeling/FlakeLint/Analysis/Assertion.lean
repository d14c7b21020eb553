-- SUMMARY: Assertions: the lines that hold one, and assertions tied to an action.
import FlakeLint.Analysis.Selector
import FlakeLint.Syntax.Function

/-!
# Assertions

An assertion is a call of an asserting method, or of `expect` itself. Whether an
action is followed up is a question of lines; whether a chain goes on with an
assertion is a question of the member expressions around it.
-/

namespace FlakeLint

/-- The object whose methods are the commands of the Cypress library. -/
def libraryObject : String := "cy"

namespace Assertion

def methods : List String := ["should", "contains", "expect", "and", "assert"]

def isAssertion (call : Node) : Bool :=
  call.methodName?.any methods.contains || call.calleeName? == some "expect"

/-! ## Lines -/

/-- The assertions that stand as statements of their own in the callback of `.then(…)`. -/
def inThenCallback (call : Node) : List Node :=
  if call.methodName? = some "then" then
    match call.arguments with
    | callback :: _ =>
      if callback.kind.isCallback then
        match callback.blockBody? with
        | some body =>
          (body.parts.filter fun statement => statement.kind = .expressionStatement).filterMap
            fun statement => statement.parts.head?.filter fun n => n.kind = .call && isAssertion n
        | none => []
      else []
    | [] => []
  else []

/-- The assertions that a call gives rise to: itself, and those in its callback. -/
def sitesOf (call : Node) : List Node :=
  (if isAssertion call then [call] else []) ++ inThenCallback call

/-- The lines under a place that hold an assertion, each once. -/
def lines (place : Cursor) : Except Fault (List Nat) := do
  let sites := place.calls.flatMap fun call => sitesOf call.node
  return (← sites.mapM Node.startLine).eraseDups

/-! ## Chains -/

/-- Do the member expressions directly around a call include one of the given methods? -/
def isChained (methods : List String) (call : Cursor) : Bool :=
  (call.above.takeWhile fun n => n.kind = .member).any fun n =>
    n.propertyName?.any methods.contains

/-- Asserting methods that a related assertion may use. -/
def relatedMethods : List String := ["should", "contains", "and", "expect"]

/-- How many lines below an action a related assertion may start. -/
def relatedWindow : Nat := 5

/-- Is this a call `cy.get('<related selector>')` that goes on with an assertion? -/
def isRelated (selector : String) (call : Cursor) : Bool :=
  call.node.isCallOf libraryObject "get" &&
  (call.node.arguments.head?.bind Node.stringValue?).any (Selector.related selector) &&
  isChained relatedMethods call

/-- Does a related assertion start on one of the lines after `line`? The lines of all calls are
asked for, up to the first that answers yes. -/
def hasRelated (place : Cursor) (selector : String) (line : Int) : Except Fault Bool :=
  place.calls.anyM fun call => do
    let at_ ← call.node.startLine
    return line < at_ && at_ ≤ line + relatedWindow && isRelated selector call

end Assertion

end FlakeLint
