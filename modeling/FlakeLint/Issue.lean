-- SUMMARY: Issues, their severities, and the grades of files.
import FlakeLint.Location
import FlakeLint.Text.Blank

/-!
# Issues

One reliability problem in a test file: what it is, how severe, and where. A
finding becomes an issue when it is put at a place of a source.
-/

namespace FlakeLint

inductive Severity where
  | info
  | low
  | medium
  | high
  | veryHigh
  /-- A severity from elsewhere, kept by its name. -/
  | other (name : String)
deriving DecidableEq, Repr

namespace Severity

def name : Severity → String
  | .info => "info"
  | .low => "low"
  | .medium => "medium"
  | .high => "high"
  | .veryHigh => "very high"
  | .other name => name

def ofName (name : String) : Severity :=
  match name with
  | "info" => .info
  | "low" => .low
  | "medium" => .medium
  | "high" => .high
  | "very high" => .veryHigh
  | _ => .other name

end Severity

inductive Grade where
  | excellent
  | good
  | fair
  | moderateRisk
  | highRisk
  /-- A grade from elsewhere, kept by its name. -/
  | other (name : String)
deriving DecidableEq, Repr

namespace Grade

def name : Grade → String
  | .excellent => "A - Excellent"
  | .good => "B - Good"
  | .fair => "C - Fair"
  | .moderateRisk => "D - Moderate Risk"
  | .highRisk => "E - High Risk"
  | .other name => name

def ofName (name : String) : Grade :=
  match name with
  | "A - Excellent" => .excellent
  | "B - Good" => .good
  | "C - Fair" => .fair
  | "D - Moderate Risk" => .moderateRisk
  | "E - High Risk" => .highRisk
  | _ => .other name

end Grade

/-- What is wrong, before it is said where. -/
structure Finding where
  message : String
  severity : Severity
  explanation : Option String
  fix : Option String
deriving DecidableEq, Repr

structure Issue where
  message : String
  severity : Severity
  location : Option Location
  /-- The trimmed source line of the location. -/
  context : Option String
  explanation : Option String
  fix : Option String
deriving DecidableEq, Repr

def Issue.line (issue : Issue) : Option Int :=
  issue.location.map Location.line

/-! ## From a finding to an issue -/

/-- The source line with a number from 1; none out of range. -/
def lineAt? (lines : List String) (line : Int) : Option String :=
  if 1 ≤ line then lines[(line - 1).toNat]? else none

/-- The text of a source line; empty out of range. -/
def lineText (lines : List String) (line : Int) : String :=
  (lineAt? lines line).getD ""

/-- A source line as it is shown beside an issue. -/
def contextAt? (lines : List String) (line : Int) : Option String :=
  (lineAt? lines line).map Text.trim

namespace Finding

/-- Puts a finding at a place, with another line than the place's own as context if one is given.
A place outside the source counts as no place, and without a place there is no context. -/
def issueShowing (finding : Finding) (lines : List String) (place : Option Location)
    (contextLine : Option Int) : Issue :=
  let place := place.filter fun location => (lineAt? lines location.line).isSome
  { message := finding.message
    severity := finding.severity
    location := place
    context := place.bind fun location => contextAt? lines (contextLine.getD location.line)
    explanation := finding.explanation
    fix := finding.fix }

def issue (finding : Finding) (lines : List String) (place : Option Location) : Issue :=
  finding.issueShowing lines place none

end Finding

end FlakeLint
