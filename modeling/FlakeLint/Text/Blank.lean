-- SUMMARY: White space and line breaks: trimming, splitting at a separator, indenting.

/-!
# Blank text

Which characters count as white space and which end a line, and the cuts that
follow from them. Everything works on lists of characters; the versions on
`String` only wrap them.
-/

namespace FlakeLint.Text

/-- White space in the sense of Unicode, with the four information separators. -/
def isBlank (c : Char) : Bool :=
  let n := c.toNat
  (0x09 ≤ n && n ≤ 0x0D) || (0x1C ≤ n && n ≤ 0x20) || n == 0x85 || n == 0xA0 || n == 0x1680 ||
  (0x2000 ≤ n && n ≤ 0x200A) || n == 0x2028 || n == 0x2029 || n == 0x202F || n == 0x205F ||
  n == 0x3000

/-- The characters that end a line of prose; source lines end at `'\n'` alone. -/
def isLineBreak (c : Char) : Bool :=
  let n := c.toNat
  (0x0A ≤ n && n ≤ 0x0D) || (0x1C ≤ n && n ≤ 0x1E) || n == 0x85 || n == 0x2028 || n == 0x2029

/-! ## Trimming -/

/-- The list without the leading and trailing elements that satisfy `p`. -/
def stripBy {α : Type} (p : α → Bool) (xs : List α) : List α :=
  ((xs.dropWhile p).reverse.dropWhile p).reverse

def trim (s : String) : String :=
  String.ofList (stripBy isBlank s.toList)

/-- Does the text hold a character that is not white space? -/
def isVisible (cs : List Char) : Bool :=
  cs.any (!isBlank ·)

/-! ## Cutting -/

/-- The pieces between the separators; `n` separators give `n + 1` pieces. -/
def splitOn {α : Type} [BEq α] (sep : α) (xs : List α) : List (List α) :=
  xs.foldr (fun x pieces =>
    if x == sep then [] :: pieces
    else match pieces with
      | [] => [[x]]
      | piece :: rest => (x :: piece) :: rest) [[]]

theorem splitOn_ne_nil {α : Type} [BEq α] (sep : α) (xs : List α) : splitOn sep xs ≠ [] := by
  cases xs with
  | nil => simp [splitOn]
  | cons x xs =>
    simp only [splitOn, List.foldr_cons]
    split
    · simp
    · split <;> simp

/-- The lines of a source text: the pieces between its `'\n'` characters. -/
def sourceLines (s : String) : List String :=
  (splitOn '\n' s.toList).map String.ofList

/-- The lines of a prose text, each with its own line break; `"\r\n"` is one break. -/
def proseLines (cs : List Char) : List (List Char) :=
  cs.foldr (fun c lines =>
    match lines with
    | [] => [[c]]
    | line :: rest =>
      if isLineBreak c && !(c == '\r' && line.head? == some '\n') then [c] :: line :: rest
      else (c :: line) :: rest) []

/-- Puts `margin` before every line that shows anything. -/
def indent (margin : String) (s : String) : String :=
  String.ofList <| (proseLines s.toList).flatMap fun line =>
    if isVisible line then margin.toList ++ line else line

/-- Pads with blanks on the right up to `width` characters. -/
def padRight (width : Nat) (s : String) : String :=
  s ++ String.ofList (List.replicate (width - s.length) ' ')

end FlakeLint.Text
