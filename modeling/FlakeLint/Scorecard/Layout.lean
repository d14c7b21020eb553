-- SUMMARY: The scorecard of a code base: its score above a table of the worst files.
import FlakeLint.Codebase
import FlakeLint.Scorecard.Canvas

/-!
# Scorecards

A panel with score and grade stands over a panel with one row per result, lowest
score first. Everything is drawn at twice its nominal size.
-/

namespace FlakeLint.Scorecard

def scale : Nat := 2

/-- A length of the layout in pixels. -/
def pixels (length : Nat) : Nat :=
  length * scale

/-! ## Colours and fonts -/

def background : Colour := ⟨246, 247, 249⟩
def panelColour : Colour := ⟨235, 238, 242⟩
def stripeColour : Colour := ⟨228, 232, 237⟩
def textColour : Colour := ⟨34, 40, 49⟩
def dimColour : Colour := ⟨110, 118, 129⟩
def borderColour : Colour := ⟨196, 202, 210⟩

/-- Good scores are green, middling ones amber, all others red. -/
def scoreColour (score : Number) : Colour :=
  if (Number.int 90).le score then ⟨76, 132, 92⟩
  else if (Number.int 60).le score then ⟨190, 142, 58⟩
  else ⟨176, 76, 70⟩

inductive Face where
  | regular
  | bold
  | mono
deriving DecidableEq, Repr

/-- The font files to try for a face, best first. -/
def Face.files : Face → List String
  | .mono => [
    "/System/Library/Fonts/SFNSMono.ttf",
    "/usr/share/fonts/truetype/dejavu/DejaVuSansMono.ttf",
    "/usr/share/fonts/truetype/liberation/LiberationMono-Regular.ttf"]
  | .bold => [
    "/System/Library/Fonts/HelveticaNeue.ttc",
    "/usr/share/fonts/truetype/dejavu/DejaVuSans-Bold.ttf",
    "/usr/share/fonts/truetype/liberation/LiberationSans-Bold.ttf"]
  | .regular => [
    "/System/Library/Fonts/HelveticaNeue.ttc",
    "/usr/share/fonts/truetype/dejavu/DejaVuSans.ttf",
    "/usr/share/fonts/truetype/liberation/LiberationSans-Regular.ttf"]

/-- The first font of a face that is installed, at a nominal size; otherwise the built-in font. -/
def fontFor (installed : List String) (face : Face) (size : Nat) : Font :=
  match face.files.find? installed.contains with
  | some file => ⟨some file, pixels size⟩
  | none => .builtIn

/-! ## Rows -/

structure Row where
  name : String
  score : Number
  issues : Nat

def rowLimit : Nat := 20

def nameWidth : Nat := 34

/-- The end of a long path, behind three dots. -/
def shortName (path : String) : String :=
  if path.length ≤ nameWidth then path
  else "..." ++ String.ofList (path.toList.drop (path.length - (nameWidth - 3)))

def rowOf (output : Output) : Row where
  name := shortName output.path
  score := match output.score with
    | some score => if score.isZero then .real .zero else score
    | none => .real .zero
  issues := output.issues.length

/-- Rows are ordered by score, then by name. -/
def Row.isBefore (x y : Row) : Bool :=
  if x.score.same y.score then x.name < y.name else x.score.lt y.score

/-- The rows that are shown. -/
def rowsOf (outputs : List Output) : List Row :=
  ((outputs.map rowOf).mergeSort fun x y => !y.isBefore x).take rowLimit

/-! ## Layout -/

def width : Nat := pixels 460
def margin : Nat := pixels 18
def tableTop : Nat := pixels 150
def rowHeight : Nat := pixels 20
def nameColumn : Nat := margin + pixels 10
def scoreColumn : Nat := pixels 330
def issueColumn : Nat := pixels 395
def headTop : Nat := tableTop + pixels 8
def ruleTop : Nat := headTop + pixels 16
def rowsTop : Nat := ruleTop + pixels 6

def tableHeight (rowCount : Nat) : Nat :=
  pixels 30 + max 1 rowCount * rowHeight + pixels 8

def height (rowCount : Nat) : Nat :=
  tableTop + tableHeight rowCount + pixels 36

/-- A panel over the full width between two heights. -/
def panelBetween (top bottom : Nat) : Stroke :=
  .panel ⟨margin, top, width - margin, bottom⟩ (pixels 4) panelColour borderColour 1

/-- A text in the middle of the card. -/
def title (font : Font) (y : Nat) (fill : Colour) (text : String) : Stroke :=
  .text (centred width font text) y text fill font

def cell (font : Font) (x y : Nat) (fill : Colour) (text : String) : Stroke :=
  .text (.int x) y text fill font

/-- The strokes of one row; every second row has a stripe behind it. -/
def rowStrokes (font : Font) (index : Nat) (row : Row) : Except Fault (List Stroke) := do
  let y := rowsTop + index * rowHeight
  let stripe : List Stroke :=
    if index % 2 = 1 then
      [.bar ⟨margin + 1, y - pixels 2, width - margin - 1, y + rowHeight - pixels 4⟩ stripeColour]
    else []
  let score ← row.score.textToTenth
  return stripe ++ [
    cell font nameColumn y textColour row.name,
    cell font scoreColumn y (scoreColour row.score) score,
    cell font issueColumn y textColour (toString row.issues)]

/-- The strokes of the rows from number `index` on. -/
def rowsStrokes (font : Font) (index : Nat) : List Row → Except Fault (List Stroke)
  | [] => .ok []
  | row :: rows => do return (← rowStrokes font index row) ++ (← rowsStrokes font (index + 1) rows)

def footer (failureCount : Nat) : String :=
  if failureCount = 0 then "static analysis of e2e test reliability"
  else s!"{failureCount} file(s) could not be analysed"

/-- All strokes of a scorecard, the one that saves it last. -/
def draw (installed : List String) (codebase : Codebase) (path : String) :
    Except Fault (List Stroke) := do
  let fontOf := fontFor installed
  let rows := rowsOf codebase.outputs
  let bottom := height rows.length
  let score ← codebase.score.textToTenth
  let mono := fontOf .mono 10
  let body ←
    if rows.isEmpty then pure [cell mono nameColumn rowsTop dimColour "(no test files analysed)"]
    else rowsStrokes mono 0 rows
  let figures :=
    s!"{codebase.grade.name}  ·  {codebase.fileCount} files  ·  {codebase.issueCount} issues"
  return [
    .canvas width bottom background,
    .frame ⟨0, 0, width - 1, bottom - 1⟩ borderColour (pixels 1),
    title (fontOf .bold 16) (pixels 14) textColour "TESTCOPILOT · TEST RELIABILITY",
    panelBetween (pixels 44) (pixels 134),
    title (fontOf .bold 44) (pixels 50) (scoreColour codebase.score) score,
    title (fontOf .regular 14) (pixels 108) dimColour figures,
    panelBetween tableTop (tableTop + tableHeight rows.length),
    cell mono nameColumn headTop dimColour "File",
    cell mono scoreColumn headTop dimColour "Score",
    cell mono issueColumn headTop dimColour "Issues",
    .bar ⟨nameColumn, ruleTop, width - margin - pixels 10, ruleTop⟩ borderColour] ++ body ++ [
    title (fontOf .regular 9) (bottom - pixels 24) dimColour (footer codebase.failures.length),
    .save path]

end FlakeLint.Scorecard
