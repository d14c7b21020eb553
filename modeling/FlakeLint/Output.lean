-- SUMMARY: What checkers say about files, what cannot be analysed, and what is logged.
import FlakeLint.Issue
import FlakeLint.Number.Basic

/-!
# Outputs

The results that checkers hand to aggregation and to the renderers, and the
events that are logged on the way.
-/

namespace FlakeLint

/-- One checker's result for one file. -/
structure Output where
  checker : String
  path : String
  issues : List Issue
  grade : Grade
  score : Option Number
  summary : String
deriving DecidableEq, Repr

/-- A file that could not be analysed at all. -/
structure Failure where
  path : String
  reason : String
deriving DecidableEq, Repr

/-- A line of the log: which part of the program speaks, and what it says. -/
structure LogLine where
  speaker : String
  text : String
deriving DecidableEq, Repr

def LogLine.render (line : LogLine) : String :=
  s!"{line.speaker}: {line.text}"

end FlakeLint
