-- SUMMARY: What a picture is drawn with: colours, fonts, strokes.
import FlakeLint.Number.Basic

/-!
# Canvases

A picture is a list of strokes on an empty canvas. Lengths are pixels. Where a
text starts may fall on a fraction of a pixel, since texts are centred by their
measured width.
-/

namespace FlakeLint

structure Colour where
  red : Nat
  green : Nat
  blue : Nat
deriving DecidableEq, Repr

/-- A rectangle by two opposite corners. -/
structure Box where
  left : Int
  top : Int
  right : Int
  bottom : Int
deriving DecidableEq, Repr

/-- A font file at a size; without a file the built-in font. -/
structure Font where
  file : Option String
  size : Nat
deriving DecidableEq, Repr

namespace Font

/-- The built-in font has one size. -/
def builtIn : Font := ⟨none, 10⟩

/-- The width of a text in half pixels: a character is half as wide as the font is high. -/
def widthHalves (font : Font) (text : String) : Nat :=
  text.length * font.size

end Font

inductive Stroke where
  | canvas (width height : Int) (background : Colour)
  /-- The outline of a rectangle. -/
  | frame (box : Box) (outline : Colour) (width : Int)
  /-- A filled rectangle. -/
  | bar (box : Box) (fill : Colour)
  /-- A filled rectangle with round corners and an outline. -/
  | panel (box : Box) (radius : Int) (fill outline : Colour) (width : Int)
  | text (x : Number) (y : Int) (content : String) (fill : Colour) (font : Font)
  | save (path : String)
deriving DecidableEq, Repr

/-- Where a text starts that is centred between 0 and `width`. -/
def centred (width : Nat) (font : Font) (text : String) : Number :=
  .real (Double.ofQuotient (2 * (width : Int) - font.widthHalves text) 4)

end FlakeLint
