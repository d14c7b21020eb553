-- SUMMARY: Waits: for aliases, for fixed times, in runs, and with an excuse on their line.
import FlakeLint.Analysis.Assertion
import FlakeLint.Analysis.Names
import FlakeLint.Number.Basic

/-!
# Waits

`cy.wait('@alias')` waits for a request, `cy.wait(1000)` for a fixed time. A
comment on the line can excuse a fixed wait; waits for requests that follow each
other closely form a run.
-/

namespace FlakeLint.Wait

open FlakeLint.Text

/-! ## Aliases -/

/-- The only argument of a call. -/
def soleArgument? (call : Node) : Option Node :=
  match call.arguments with
  | [argument] => some argument
  | _ => none

/-- The alias that a call waits for, its `@` included. -/
def alias? (object : String) (call : Node) : Option String :=
  if call.isCallOf object "wait" then
    ((soleArgument? call).bind Node.stringValue?).filter fun value => startsWith value "@"
  else none

/-- The alias that `.as('name')` declares, with an `@` before it. -/
def declaredAlias? (call : Node) : Option String :=
  if call.methodName? = some "as" then
    ((soleArgument? call).bind Node.stringValue?).map ("@" ++ ·)
  else none

/-- All aliases declared under a place, each once. -/
def declaredAliases (place : Cursor) : List String :=
  (place.calls.filterMap fun call => declaredAlias? call.node).eraseDups

/-! ## Runs of waits -/

/-- Waits at most so many lines apart belong to one run. -/
def runGap : Nat := 3

/-- Goes through ascending lines and counts the length of the current run; tells whether `line` is in
a run of two or more. -/
def inRun (line : Int) (run : Nat) : List Nat → Bool
  | previous :: current :: rest =>
    let run := if current - previous ≤ runGap then run + 1 else 1
    (2 ≤ run && (line == previous || line == current)) || inRun line run (current :: rest)
  | _ => false

/-- Is the wait for an alias at `line` one of several in close succession? -/
def isConsecutive (place : Cursor) (line : Int) (object : String) : Except Fault Bool := do
  let waits := place.calls.filter fun call => (alias? object call.node).isSome
  let lines ← waits.mapM fun call => call.node.startLine
  return inRun line 1 lines.mergeSort

/-! ## Excuses for fixed waits -/

/-- Fixed waits below so many milliseconds are not reported. -/
def reportedFrom : Int := 500

/-- An explained wait may last so many milliseconds. -/
def explainedUpTo : Int := 1000

/-- Does a comment on the line mention one of the words? -/
def commentMentions (words : List String) (line : String) : Bool :=
  occurs (afterWordThen ["//"] words) line.toList

def isExplained (line : String) : Bool :=
  commentMentions ["animation", "transition", "loading", "render", "delay"] line

/-- Is a fixed wait excused: switched off by a marker, or short and explained? -/
def isExempt (line : String) (delay : Number) : Bool :=
  commentMentions ["testcopilot-disable"] line ||
    (delay.le (.int explainedUpTo) && isExplained line)

end FlakeLint.Wait
