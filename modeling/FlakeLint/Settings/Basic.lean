-- SUMMARY: The settings of a project: their names, defaults, and the values they accept.
import FlakeLint.Checker
import FlakeLint.Json.Value

/-!
# Settings

Settings are a table from names to values as they stand in the project's
settings file. `Setting` lists the names that mean something; `accepts` says
which values do.
-/

namespace FlakeLint

inductive ReportFormat where
  | console
  | json
  | scorecard
  /-- JSON and a scorecard. -/
  | both
deriving DecidableEq, Repr

namespace ReportFormat

def all : List ReportFormat :=
  [.console, .json, .scorecard, .both]

def name : ReportFormat → String
  | .console => "console"
  | .json => "json"
  | .scorecard => "scorecard"
  | .both => "both"

def names : List String :=
  all.map name

def showsJson : ReportFormat → Bool
  | .json | .both => true
  | _ => false

def drawsScorecard : ReportFormat → Bool
  | .scorecard | .both => true
  | _ => false

end ReportFormat

inductive Setting where
  | checkers
  | format
  | explain
  | fileSummary
  | codebase
  | exclude
  | scorecardPath
deriving DecidableEq, Repr

namespace Setting

/-- All settings, in the order in which they are shown and written. -/
def all : List Setting :=
  [.checkers, .format, .explain, .fileSummary, .codebase, .exclude, .scorecardPath]

def name : Setting → String
  | .checkers => "checkers"
  | .format => "output_format"
  | .explain => "issue_explain"
  | .fileSummary => "file_summary"
  | .codebase => "codebase_analysis"
  | .exclude => "exclude"
  | .scorecardPath => "scorecard_path"

/-- The name as it stands in a document. -/
def key (setting : Setting) : Utf16 :=
  setting.name

def ofKey? (key : Utf16) : Option Setting :=
  all.find? fun setting => setting.key = key

def description : Setting → String
  | .checkers => "Enable/disable checkers \x7bchecker_key: bool\x7d (missing = enabled)"
  | .format => "Report format: console, json, scorecard or both"
  | .explain => "Print the plain-language explanation and fix for each issue"
  | .fileSummary => "Print a summary paragraph per file"
  | .codebase => "Print the aggregate codebase rating after the scan"
  | .exclude => "Path patterns to exclude from scanning"
  | .scorecardPath => "Output path for the scorecard image"

/-- Where scorecards go unless the settings say otherwise. -/
def defaultScorecardPath : String := "testcopilot-scorecard.png"

def default : Setting → Json
  | .checkers => .table (Checker.all.map fun checker => (↑checker.key, .bool true))
  | .format => .text ReportFormat.console.name
  | .explain => .bool false
  | .fileSummary => .bool true
  | .codebase => .bool true
  | .exclude => .list []
  | .scorecardPath => .text defaultScorecardPath

/-- Is this a value that the setting can have? -/
def accepts : Setting → Json → Bool
  | .checkers, .table entries => entries.all fun entry => entry.2.isBool
  | .format, .text text => ReportFormat.names.any fun name => Utf16.ofString name = text
  | .explain, .bool _ | .fileSummary, .bool _ | .codebase, .bool _ => true
  | .exclude, .list items => items.all Json.isText
  | .scorecardPath, .text _ => true
  | _, _ => false

end Setting

abbrev Settings := Table Utf16 Json

namespace Settings

def defaults : Settings :=
  Setting.all.map fun setting => (setting.key, setting.default)

/-- The value of a setting, its default if there is none. -/
def value (settings : Settings) (setting : Setting) : Json :=
  (Table.get? settings setting.key).getD setting.default

end Settings

end FlakeLint
