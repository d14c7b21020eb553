-- SUMMARY: Writing a JSON document, one entry a line.
import FlakeLint.Json.Value
import FlakeLint.Text.Quoted

/-!
# Writing JSON

Documents are written with two blanks per level, one item or entry a line. Files
escape everything beyond ASCII; reports keep it. Characters above U+FFFF are
escaped as a pair of units. A half of a pair that stands alone has its escape only;
no report holds one.
-/

namespace FlakeLint.Json

open FlakeLint.Text

/-! ## Text -/

def unicodeEscape (unit : Nat) : List Char :=
  '\\' :: 'u' :: hexDigits 4 unit

/-- The escape of a character by its code: one unit, or two for a character beyond U+FFFF. -/
def codeEscape (c : Char) : List Char :=
  (Utf16.unitsOf c).flatMap fun unit => unicodeEscape unit.toNat

def shortEscape? (c : Char) : Option (List Char) :=
  match c with
  | '"' => some ['\\', '"']
  | '\\' => some ['\\', '\\']
  | '\n' => some ['\\', 'n']
  | '\r' => some ['\\', 'r']
  | '\t' => some ['\\', 't']
  | '\x0C' => some ['\\', 'f']
  | '\x08' => some ['\\', 'b']
  | _ => none

/-- Which characters a document may hold as they are. -/
inductive Charset where
  | ascii
  | unicode
deriving DecidableEq, Repr

def Charset.holds : Charset → Char → Bool
  | .ascii, c => 0x20 ≤ c.toNat && c.toNat < 0x7F
  | .unicode, c => 0x20 ≤ c.toNat

def escapeChar (charset : Charset) (c : Char) : List Char :=
  match shortEscape? c with
  | some escape => escape
  | none => if charset.holds c then [c] else codeEscape c

def escapeGlyph (charset : Charset) : Utf16.Glyph → List Char
  | .char c => escapeChar charset c
  | .half unit => unicodeEscape unit.toNat

def writeText (charset : Charset) (text : Utf16) : List Char :=
  '"' :: text.glyphs.flatMap (escapeGlyph charset) ++ ['"']

/-! ## Values -/

def writeNumber : Number → List Char
  | .int n => (toString n).toList
  | .real .nan => "NaN".toList
  | .real (.infinite negative) => (if negative then "-Infinity" else "Infinity").toList
  | .real d => d.text.toList

def newline (level : Nat) : List Char :=
  '\n' :: List.replicate (2 * level) ' '

mutual
def write (charset : Charset) (level : Nat) : Json → List Char
  | .null => "null".toList
  | .bool b => (if b then "true" else "false").toList
  | .number n => writeNumber n
  | .text s => writeText charset s
  | .list [] => ['[', ']']
  | .list (item :: items) =>
    '[' :: newline (level + 1) ++ write charset (level + 1) item ++
      writeItems charset (level + 1) items ++ newline level ++ [']']
  | .table [] => ['{', '}']
  | .table ((key, value) :: entries) =>
    '{' :: newline (level + 1) ++ writeText charset key ++ [':', ' '] ++
      write charset (level + 1) value ++ writeEntries charset (level + 1) entries ++
      newline level ++ ['}']

/-- The further items of a list, each after a comma. -/
def writeItems (charset : Charset) (level : Nat) : List Json → List Char
  | [] => []
  | item :: items =>
    ',' :: newline level ++ write charset level item ++ writeItems charset level items

/-- The further entries of a table, each after a comma. -/
def writeEntries (charset : Charset) (level : Nat) : List (Utf16 × Json) → List Char
  | [] => []
  | (key, value) :: entries =>
    ',' :: newline level ++ writeText charset key ++ [':', ' '] ++
      write charset level value ++ writeEntries charset level entries
end

mutual
/-- Does every whole number of the document have few enough digits to be written? -/
def checkNumbers : Json → Except Fault Unit
  | .number n => n.text.map fun _ => ()
  | .list items => checkItems items
  | .table entries => checkEntries entries
  | _ => .ok ()

def checkItems : List Json → Except Fault Unit
  | [] => .ok ()
  | item :: items => do checkNumbers item; checkItems items

def checkEntries : List (Utf16 × Json) → Except Fault Unit
  | [] => .ok ()
  | (_, value) :: entries => do checkNumbers value; checkEntries entries
end

/-- The text of a document, without a line break at its end. -/
def document (charset : Charset) (json : Json) : Except Fault String := do
  json.checkNumbers
  return String.ofList (json.write charset 0)

end FlakeLint.Json
