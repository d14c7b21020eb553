-- SUMMARY: Tables of text with aligned columns.
import FlakeLint.Report.Terminal
import FlakeLint.Text.Blank

/-!
# Grids

A head and rows of cells. Columns are as wide as their widest cell unless widths
are given; two blanks stand between them. Cells without a column are left out.
-/

namespace FlakeLint

structure Grid where
  heads : List String
  rows : List (List String)

namespace Grid

/-- The width of a column: that of its head or its widest cell. Every row must have the cell. -/
def columnWidth (rows : List (List String)) (index : Nat) (head : String) : Except Fault Nat := do
  let cells ← rows.mapM fun row =>
    match row[index]? with
    | some cell => .ok cell.length
    | none => .error .shortRow
  return cells.foldl max head.length

/-- The widths of the columns from `index` on. -/
def widthsFrom (rows : List (List String)) (index : Nat) : List String → Except Fault (List Int)
  | [] => .ok []
  | head :: heads => do
    let width ← columnWidth rows index head
    return (width : Int) :: (← widthsFrom rows (index + 1) heads)

def rowLine (widths : List Int) (cells : List String) : String :=
  String.intercalate "  " <| (cells.zip widths).map fun (cell, width) =>
    Text.padRight width.toNat cell

/-- The length of the line under the head. -/
def ruleLength (widths : List Int) : Int :=
  widths.foldl (· + ·) 0 + 2 * ((widths.length : Int) - 1)

/-- The lines of a grid. A grid without rows has none, not even a head. -/
def render (terminal : Terminal) (grid : Grid) (widths : List Int) :
    Except Fault (List String) := do
  if grid.rows.isEmpty then return []
  let widths ← if widths.isEmpty then widthsFrom grid.rows 0 grid.heads else pure widths
  let rule := String.ofList (List.replicate (ruleLength widths).toNat '─')
  return terminal.paint .bold (rowLine widths grid.heads) :: terminal.paint .dim rule ::
    grid.rows.map (rowLine widths)

end Grid

end FlakeLint
