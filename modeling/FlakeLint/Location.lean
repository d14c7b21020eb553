-- SUMMARY: Where an issue is: lines from 1, columns in characters from 0.

/-!
# Locations

What a report says about a place. Only the line is always known.
-/

namespace FlakeLint

structure Location where
  line : Int
  column : Option Int
  endLine : Option Int
  endColumn : Option Int
deriving DecidableEq, Repr

end FlakeLint
