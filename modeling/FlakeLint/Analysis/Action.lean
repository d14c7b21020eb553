-- SUMMARY: User actions: where they are, and which need no check afterwards.
import FlakeLint.Analysis.Assertion
import FlakeLint.Slice
import FlakeLint.Syntax.Source

/-!
# User actions

A user action is a command such as `click` in a chain that begins with the
library object. Some need no check: setup verbs, actions near setup code, and
navigation.
-/

namespace FlakeLint

structure ActionSite where
  line : Nat
  command : String
  isAsserted : Bool
  selector : Option String
  location : Location
deriving DecidableEq, Repr

namespace ActionSite

def commands : List String :=
  ["click", "type", "clear", "check", "uncheck", "select", "dblclick", "rightclick", "focus",
    "blur", "submit", "trigger", "scrollIntoView", "scrollTo"]

/-- The command of a call, if it is a user action on the given object. -/
def command? (object : String) (call : Node) : Option String :=
  (call.methodName?.filter commands.contains).filter fun _ => call.chainObject? == some object

/-- All user actions of a source, in source order. A site runs from the first call of its chain to
the action. -/
def find (parsed : Parsed) (object : String) : Except Fault (List ActionSite) :=
  (parsed.cursor.calls.filterMap fun call =>
    (command? object call.node).map fun command => (call, command)).mapM fun (call, command) => do
    let start := call.node.chainStart.1
    return {
      line := ← call.node.startLine
      command
      isAsserted := Assertion.isChained Assertion.methods call
      selector := start.getSelector?
      location := ← parsed.location start call.node }

end ActionSite

/-! ## Setup code -/

namespace Setup

def commands : List String := ["scrollIntoView", "scrollTo", "focus", "blur", "clear"]

/-- Pieces of source lines, in small letters, that mark setup code. -/
def markers : List String :=
  ["beforeeach", "before(", "// setup", "// navigate", "// preparation"]

def isMarked (line : String) : Bool :=
  markers.any (Text.contains (Text.lower line))

/-- The lines in which setup code near an action is looked for; lines count from 1. -/
def window (lines : List String) (line : Int) : List String :=
  Slice.between lines (max 0 (line - 10)) (min lines.length (line + 5))

/-- Does the action rarely need a check: a setup verb, near setup code, or for navigation? -/
def excuses (command : String) (selector : Option String) (lines : List String) (line : Int) :
    Bool :=
  commands.contains command || (window lines line).any isMarked ||
    selector.any Selector.isNavigation

end Setup

end FlakeLint
