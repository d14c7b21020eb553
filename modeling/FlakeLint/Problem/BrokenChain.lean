-- SUMMARY: Callbacks and helpers that run library commands without returning the chain.
import FlakeLint.Analysis.Returns
import FlakeLint.TestFile

/-!
# Broken chains

Commands are queued; who calls a helper can wait for them only if the helper
returns the chain. The same holds for the callback of `.then(…)`. Functions
inside a test are left alone, and so are retry helpers.
-/

namespace FlakeLint.BrokenChain

/-! ## Callbacks -/

def callbackFinding : Finding where
  message :=
    "Callback in .then() contains Cypress commands but doesn't return — this " ++
    "breaks the command chain and can cause race conditions."
  severity := .medium
  explanation := some <|
    "When you use Cypress commands inside a .then() callback, you need to " ++
    "return them to maintain the command chain. Without return, subsequent " ++
    "commands might run before these complete."
  fix := some <|
    "Add 'return' before the Cypress commands in this .then() callback, or " ++
    "use .should() for assertions instead."

/-- A function value with a block of statements that runs library commands and returns nothing. -/
def isBrokenCallback (callback : Node) : Bool :=
  callback.kind.isCallback &&
  callback.blockBody?.any fun body =>
    Returns.containsLibraryCalls (.ofRoot body) libraryObject && !Returns.hasReturn (.ofRoot body)

/-- The callback of a call `….then(callback)`, if it breaks the chain. -/
def brokenCallback? (call : Node) : Option Node :=
  call.arguments.head?.filter isBrokenCallback

/-! ## Helpers -/

def helperFinding (name : String) : Finding where
  message :=
    s!"Function \"{name}\" contains Cypress commands but doesn't return them — this " ++
    "can break command chaining and cause race conditions."
  severity := .medium
  explanation := some <|
    "Custom functions that contain Cypress commands should return the command " ++
    "chain so that calling code can properly wait for completion."
  fix := some <|
    "Add 'return' before the Cypress commands in this function, or wrap " ++
    "multiple commands in a .then() block and return it."

/-- Calls whose callbacks belong to a test. -/
def testScopes : List String :=
  ["it", "test", "describe", "context", "beforeEach", "afterEach", "before", "after"]

/-- Does a place stand inside a test or a hook, at any depth? -/
def isInTest (place : Cursor) : Bool :=
  place.above.any fun around =>
    around.kind = .call && around.calleeName?.any testScopes.contains

/-- Is this a function that other code can call: declared, or bound to a variable? -/
def isHelper (function : Cursor) : Bool :=
  function.kind.isFunctionDeclaration ||
  (function.kind.isCallback && function.binder?.any fun binder =>
    binder.kind = .declarator || binder.kind = .assignment)

/-- What a helper is called in reports. -/
def reportedName (function : Cursor) : String :=
  if function.functionName = "" then "anonymous function" else function.functionName

def isBrokenHelper (function : Cursor) : Bool :=
  !isInTest function &&
  (function.body?.filter fun body => body.kind = .block).any fun body =>
    Returns.containsLibraryCalls body libraryObject &&
    !Names.isRetryHelperName (reportedName function) &&
    !Returns.returnsChain body libraryObject

/-! ## Both -/

/-- The function that is reported for a place: the callback of a call of `.then`, or the place
itself. -/
def brokenAt? (place : Cursor) : Option (Finding × Node) :=
  if place.kind = .call && place.node.methodName? == some "then" then
    (brokenCallback? place.node).map fun callback => (callbackFinding, callback)
  else if isHelper place && isBrokenHelper place then
    some (helperFinding (reportedName place), place.node)
  else none

/-- The issues of a file, in the order of the places. -/
def issues (file : TestFile) : List Issue :=
  (file.cursor.walk.filterMap brokenAt?).map fun (finding, function) =>
    file.issueAt finding function

end FlakeLint.BrokenChain
