-- SUMMARY: Source bytes: lines, character columns, and placing an outline of byte offsets.
import FlakeLint.Location
import FlakeLint.Slice
import FlakeLint.Syntax.Node
import FlakeLint.Text.Blank
import FlakeLint.Text.Utf8

/-!
# Sources

A parser reports offsets into the bytes of a source. Here they become rows and
byte columns of nodes, and byte columns become character columns where a place
is shown to people. Lines end at the newline byte alone.
-/

namespace FlakeLint

/-! ## Outlines -/

/-- A tree as a parser reports it: byte offsets instead of places and text. -/
inductive Outline where
  | mk (kind : Kind) (named missing hasError : Bool) (role : Option Role)
    (range : Option (Nat × Nat)) (children : List Outline)

/-- The place of each offset into the bytes, the one behind the last byte included. -/
def pointsOf (bytes : List UInt8) : Array Point :=
  let step (state : Array Point × Point) (b : UInt8) : Array Point × Point :=
    let next := if b == 0x0A then ⟨state.2.row + 1, 0⟩ else ⟨state.2.row, state.2.column + 1⟩
    (state.1.push next, next)
  (bytes.foldl step (#[⟨0, 0⟩], ⟨0, 0⟩)).1

/-- The place of an offset; behind the end, columns go on counting. -/
def pointAt (points : Array Point) (offset : Nat) : Point :=
  match points[offset]? with
  | some point => point
  | none =>
    let last := points.back?.getD ⟨0, 0⟩
    ⟨last.row, last.column + (offset + 1 - points.size)⟩

/-- The text between two offsets; broken characters at its ends are replaced. -/
def textBetween (bytes : ByteArray) (start stop : Nat) : String :=
  String.ofList (Utf8.decode (bytes.extract start stop).toList)

mutual
/-- Puts an outline onto the source it was made from. -/
def Outline.place (bytes : ByteArray) (points : Array Point) : Outline → Node
  | .mk kind named missing hasError role range children =>
    let text := match range with
      | some (start, stop) => textBetween bytes start stop
      | none => ""
    let span := range.map fun (start, stop) => ⟨pointAt points start, pointAt points stop⟩
    .mk { kind, named, missing, hasError, role, text, span } (placeAll bytes points children)

def placeAll (bytes : ByteArray) (points : Array Point) : List Outline → List Node
  | [] => []
  | outline :: outlines => outline.place bytes points :: placeAll bytes points outlines
end

/-! ## Parsed sources -/

/-- A syntax tree and the lines of bytes it was built from. -/
structure Parsed where
  root : Node
  grammar : String
  lines : List (List UInt8)

def byteLines (bytes : List UInt8) : List (List UInt8) :=
  Text.splitOn 0x0A bytes

/-- The column in characters: those that start before the byte column. A negative byte column counts
from the end of the line; without the line, the byte column stands as it is. -/
def charColumn (lines : List (List UInt8)) (row byteColumn : Int) : Int :=
  match if 0 ≤ row then lines[row.toNat]? else none with
  | some line => (Utf8.decode (Slice.before line byteColumn)).length
  | none => byteColumn

namespace Parsed

def cursor (parsed : Parsed) : Cursor :=
  .ofRoot parsed.root

/-- From the start of one node to the end of another. -/
def location (parsed : Parsed) (first last : Node) : Except Fault Location := do
  let start := (← first.span).start
  let stop := (← last.span).stop
  return {
    line := start.row + 1
    column := some (charColumn parsed.lines start.row start.column)
    endLine := some (stop.row + 1)
    endColumn := some (charColumn parsed.lines stop.row stop.column) }

/-- The place of one node, if it has a position. -/
def place? (parsed : Parsed) (n : Node) : Option Location :=
  (parsed.location n n).toOption

end Parsed

end FlakeLint
