-- SUMMARY: Texts of documents as 16-bit units, among them halves of pairs that stand alone.
import FlakeLint.Text.Quoted

/-!
# UTF-16

The escapes of a document spell 16-bit units. Two units make up a character beyond
U+FFFF, and a half of such a pair may stand alone: it is part of the text like any
character, it tells texts apart, and only an encoding has nothing for it. So a text
that may come from a document is a list of units. Characters have one spelling in
units, and halves that meet are a character, so different texts have different units.
-/

namespace FlakeLint

structure Utf16 where
  units : List UInt16
deriving DecidableEq, Repr

namespace Utf16

/-! ## Units -/

/-- Is this the first half of a pair? -/
def isHigh (unit : UInt16) : Bool := 0xD800 ≤ unit.toNat && unit.toNat < 0xDC00

/-- Is this the second half of a pair? -/
def isLow (unit : UInt16) : Bool := 0xDC00 ≤ unit.toNat && unit.toNat < 0xE000

/-- The units of a character: one, or two for a character beyond U+FFFF. -/
def unitsOf (c : Char) : List UInt16 :=
  let n := c.toNat
  if n < 0x10000 then [UInt16.ofNat n]
  else
    let rest := n - 0x10000
    [UInt16.ofNat (0xD800 + rest / 0x400), UInt16.ofNat (0xDC00 + rest % 0x400)]

/-- The character that two halves make up. -/
def join (high low : UInt16) : Char :=
  Char.ofNat (0x10000 + (high.toNat - 0xD800) * 0x400 + (low.toNat - 0xDC00))

/-! ## Glyphs -/

/-- A character, or a half without its partner. -/
inductive Glyph where
  | char (c : Char)
  | half (unit : UInt16)
deriving DecidableEq, Repr

namespace Glyph

def ofUnit (unit : UInt16) : Glyph :=
  if isHigh unit || isLow unit then .half unit else .char (Char.ofNat unit.toNat)

def units : Glyph → List UInt16
  | .char c => unitsOf c
  | .half unit => [unit]

def char? : Glyph → Option Char
  | .char c => some c
  | .half _ => none

/-- The character itself, or U+FFFD for a half. -/
def shown : Glyph → Char
  | .char c => c
  | .half _ => '\uFFFD'

end Glyph

/-- What units stand for, from the first one on. -/
def glyphsOf : List UInt16 → List Glyph
  | [] => []
  | [unit] => [.ofUnit unit]
  | unit :: next :: rest =>
    if isHigh unit && isLow next then .char (join unit next) :: glyphsOf rest
    else .ofUnit unit :: glyphsOf (next :: rest)

def glyphs (text : Utf16) : List Glyph :=
  glyphsOf text.units

/-! ## Strings -/

def ofString (s : String) : Utf16 :=
  ⟨s.toList.flatMap unitsOf⟩

instance : Coe String Utf16 := ⟨ofString⟩

/-- The text as a string, if no half stands alone in it. -/
def string? (text : Utf16) : Option String :=
  (text.glyphs.mapM Glyph.char?).map String.ofList

/-- The text with a replacement character for every half. -/
def shown (text : Utf16) : String :=
  String.ofList (text.glyphs.map Glyph.shown)

instance : Append Utf16 := ⟨fun text other => ⟨text.units ++ other.units⟩⟩

/-- Texts one behind the other, with a separator in between. -/
def intercalate (separator : Utf16) (texts : List Utf16) : Utf16 :=
  ⟨List.intercalate separator.units (texts.map units)⟩

def isEmpty (text : Utf16) : Bool :=
  text.units.isEmpty

/-- The text between quotes, with halves escaped like other characters that cannot be printed. -/
def quoted (text : Utf16) : String :=
  let quote := Text.quoteFor (text.glyphs.filterMap Glyph.char?)
  let escape : Glyph → List Char
    | .char c => Text.escapeFor quote c
    | .half unit => '\\' :: 'u' :: Text.hexDigits 4 unit.toNat
  String.ofList (quote :: text.glyphs.flatMap escape ++ [quote])

end Utf16

end FlakeLint
