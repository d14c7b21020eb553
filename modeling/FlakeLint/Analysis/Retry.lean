-- SUMMARY: Retry code: polling, looping, and functions named for it.
import FlakeLint.Analysis.Names
import FlakeLint.Syntax.Function

/-!
# Retry code

A wait inside a loop, a recursive call, `cy.waitUntil(…)`, or a function whose
name or use speaks of retrying is there on purpose.
-/

namespace FlakeLint.Retry

/-- Does a call stand inside the function or variable that it names? -/
def isRecursive (call : Cursor) : Bool :=
  match call.node.calleeName? with
  | none => false
  | some name =>
    name != "" && call.above.any fun around =>
      if around.kind.isFunctionDeclaration then
        (around.child? .name).map Node.text == some name
      else if around.kind = .declarator then
        (around.child? .name).bind Node.identifier? == some name
      else false

/-- Is a function value passed to a call whose name speaks of retrying? -/
def isPassedOn (function : Cursor) : Bool :=
  (function.passedTo?.bind fun call => call.node.calleeName?).any Names.isRetryName

/-- Does this place by itself make what is inside it retry code? -/
def marks (object : String) (place : Cursor) : Bool :=
  place.node.isCallOf object "waitUntil" ||
  (place.kind.isFunction &&
    (Names.isRetryName place.functionName || (place.kind.isCallback && isPassedOn place))) ||
  place.kind.isLoop ||
  (place.kind = .call && isRecursive place)

/-- Is a place part of retry code, itself or through something around it? -/
def covers (object : String) (place : Cursor) : Bool :=
  marks object place || place.ancestors.any (marks object)

end FlakeLint.Retry
