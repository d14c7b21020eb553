-- SUMMARY: Cutting lists at bounds that may count from the end.

/-!
# Slices

A bound is a position in a list; a negative one counts from the end. Bounds
outside the list stand for its ends.
-/

namespace FlakeLint.Slice

/-- The position that a bound stands for. -/
def position (length : Nat) (bound : Int) : Nat :=
  if bound < 0 then (length + bound).toNat else bound.toNat

/-- The items before a bound. -/
def before {α : Type} (items : List α) (stop : Int) : List α :=
  items.take (position items.length stop)

/-- The items from one bound up to another. -/
def between {α : Type} (items : List α) (start stop : Int) : List α :=
  (before items stop).drop (position items.length start)

end FlakeLint.Slice
