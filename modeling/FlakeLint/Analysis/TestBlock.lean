-- SUMMARY: Test blocks: the bodies of test cases, and which issues lie in which.
import FlakeLint.Issue
import FlakeLint.Syntax.Function
import FlakeLint.Table

/-!
# Test blocks

The body of `it('name', () => { … })` takes up some lines. An issue is charged
to the first block that its line lies in.
-/

namespace FlakeLint

structure TestBlock where
  index : Int
  startLine : Int
  endLine : Int
deriving DecidableEq, Repr

namespace TestBlock

def contains (block : TestBlock) (line : Int) : Bool :=
  block.startLine ≤ line && line ≤ block.endLine

/-! ## Finding blocks -/

/-- The body of the test that a call defines: its second argument must be a function with a block. -/
def bodyOf? (names : List String) (call : Node) : Option Node :=
  if call.calleeName?.any names.contains then
    match call.arguments with
    | _ :: callback :: _ => if callback.kind.isCallback then callback.blockBody? else none
    | _ => none
  else none

/-- Numbers the spans of bodies from `index` on. -/
def number (index : Int) : List Node → Except Fault (List TestBlock)
  | [] => .ok []
  | body :: bodies => do
    let block : TestBlock := ⟨index, ← body.startLine, ← body.endLine⟩
    return block :: (← number (index + 1) bodies)

/-- The bodies of all tests under a place, in source order. -/
def bodies (names : List String) (place : Cursor) : List Node :=
  place.calls.filterMap fun call => bodyOf? names call.node

def find (names : List String) (place : Cursor) : Except Fault (List TestBlock) :=
  number 0 (bodies names place)

/-! ## Charging issues -/

/-- The index of the first block that the issue's line lies in. -/
def indexFor? (blocks : List TestBlock) (line : Option Int) : Option Int :=
  line.bind fun line => (blocks.find? fun block => block.contains line).map TestBlock.index

/-- Sorts things with a line into buckets, one per block index that occurs; each bucket keeps their
order, and what lies in no block goes nowhere. -/
def bucketsBy {α : Type} (lineOf : α → Option Int) (blocks : List TestBlock) (items : List α) :
    Table Int (List α) :=
  items.foldl (fun buckets item =>
    match indexFor? blocks (lineOf item) with
    | some index => buckets.put index (((buckets.get? index).getD []) ++ [item])
    | none => buckets) []

def buckets (blocks : List TestBlock) (issues : List Issue) : Table Int (List Issue) :=
  bucketsBy Issue.line blocks issues

end TestBlock

end FlakeLint
