-- SUMMARY: A test file as the checkers see it.
import FlakeLint.Issue
import FlakeLint.Syntax.Source

/-!
# Test files

A parsed source with the path it is reported under and the lines that issues
show. The lines are those of the text; the tree brings its own line table for
columns.
-/

namespace FlakeLint

structure TestFile where
  path : String
  lines : List String
  parsed : Parsed

namespace TestFile

def ofContent (path content : String) (parsed : Parsed) : TestFile :=
  ⟨path, Text.sourceLines content, parsed⟩

def cursor (file : TestFile) : Cursor :=
  file.parsed.cursor

/-- A finding about one node. Nodes without a position give an issue without a place. -/
def issueAt (file : TestFile) (finding : Finding) (n : Node) : Issue :=
  finding.issue file.lines (file.parsed.place? n)

/-- The issues of all calls of the file, call by call in source order. -/
def issuesOfCalls (file : TestFile) (issues : Cursor → Except Fault (List Issue)) :
    Except Fault (List Issue) := do
  return (← file.cursor.calls.mapM issues).flatten

end TestFile

end FlakeLint
