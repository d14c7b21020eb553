-- SUMMARY: Which checkers run on a file: its framework, and what the settings switch off.
import FlakeLint.Checker
import FlakeLint.Json.Value

/-!
# Selection of checkers

The framework of a file follows from hints in its path and text. Every checker
of the framework runs unless the settings switch it off. Settings are taken as
they come: one that cannot be looked into is a fault.
-/

namespace FlakeLint

namespace Framework

def all : List Framework :=
  [.cypress, .playwright]

def ofName? (name : String) : Option Framework :=
  all.find? fun framework => framework.name = name

/-- The word in a source that gives a framework away. -/
def sourceMark : Framework → String
  | .cypress => "cy."
  | .playwright => "page."

/-- Does a file belong to the framework by its path or its text? -/
def claims (path content : String) (framework : Framework) : Bool :=
  Text.contains (Text.lower path) framework.name || Text.contains content framework.sourceMark

/-- The framework of a file; the first one that claims it. -/
def detect? (path content : String) : Option Framework :=
  all.find? (claims path content)

end Framework

namespace Json

/-- Looks up a key; only tables can be looked into. -/
def field? (json : Json) (key : String) : Except Fault (Option Json) :=
  match json with
  | .table entries => .ok (Table.get? entries ↑key)
  | _ => .error .wrongShape

/-- The value itself if it counts as true, and the other one if not. -/
def orElse (json other : Json) : Json :=
  if json.isTrue then json else other

end Json

namespace Checker

/-- Do the settings leave the checker on? It is on unless its flag counts as false. -/
def isEnabled (settings : Json) (checker : Checker) : Except Fault Bool := do
  if !settings.isTrue then return true
  let flags := ((← settings.field? "checkers").getD .null).orElse (.table [])
  return ((← flags.field? checker.key).getD (.bool true)).isTrue

/-- The checkers that run on files of a framework, in order. -/
def running (settings : Json) : Option Framework → Except Fault (List Checker)
  | none => .ok []
  | some framework =>
    (all.filter fun checker => checker.framework = framework).filterM (isEnabled settings)

end Checker

end FlakeLint
