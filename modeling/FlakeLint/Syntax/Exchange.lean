-- SUMMARY: Outlines as JSON, the form in which parsers hand them over.
import FlakeLint.Json.Value
import FlakeLint.Syntax.Source

/-!
# Exchanging outlines

A node is a list: kind, flags, field, start, end and, unless it has none, the
list of its children. The flags add up 1 for named, 2 for missing and 4 for an
error here or below. A node without a position has null for both ends.
-/

namespace FlakeLint

/-- A whole number that is not negative. -/
def Json.nat? : Json → Option Nat
  | .number (.int n) => if 0 ≤ n then some n.toNat else none
  | _ => none

/-- The role that a field name stands for; the empty one stands for none. -/
def Role.ofField? (field : String) : Option Role :=
  if field = "" then none else some (.ofName field)

/-- The range between two ends. -/
def rangeOf (start stop : Json) : Option (Nat × Nat) :=
  match start.nat?, stop.nat? with
  | some start, some stop => some (start, stop)
  | _, _ => none

/-- An outline from its parts. -/
def Outline.ofParts (kind : String) (flags : Nat) (field : String) (start stop : Json)
    (children : List Outline) : Outline :=
  .mk (.ofName kind) (flags % 2 = 1) (flags / 2 % 2 = 1) (flags / 4 % 2 = 1)
    (Role.ofField? field) (rangeOf start stop) children

mutual
def Outline.ofJson? : Json → Option Outline
  | .list [.text kind, flags, .text field, start, stop] =>
    flags.nat?.map fun flags => .ofParts kind.shown flags field.shown start stop []
  | .list [.text kind, flags, .text field, start, stop, .list children] => do
    return .ofParts kind.shown (← flags.nat?) field.shown start stop (← outlinesOf? children)
  | _ => none

def outlinesOf? : List Json → Option (List Outline)
  | [] => some []
  | item :: items => do return (← Outline.ofJson? item) :: (← outlinesOf? items)
end

/-- The outlines of a table from grammars to nodes. -/
def outlineTable? : List (Utf16 × Json) → Option (List (String × Outline))
  | [] => some []
  | (grammar, node) :: rest => do
    return (grammar.shown, ← Outline.ofJson? node) :: (← outlineTable? rest)

end FlakeLint
