-- SUMMARY: Looking for words in text, with and without regard to letter case.

/-!
# Words

A word is a list of characters written in small letters. Recognisers say
whether a text starts with a word, contains one, or where one stands first.
Ignoring case means: a small ASCII letter stands for both its forms, and three
of them for the letters that Unicode folds onto them.
-/

namespace FlakeLint.Text

/-! ## Letters -/

/-- Does `c` count as the small letter (or other character) `letter` when case is ignored?
`i` also stands for `İ` and `ı`, `s` for `ſ`, `k` for the Kelvin sign. -/
def sameLetter (letter c : Char) : Bool :=
  c.toLower == letter ||
  (letter == 'i' && (c == '\u0130' || c == '\u0131')) ||
  (letter == 's' && c == '\u017F') ||
  (letter == 'k' && c == '\u212A')

/-- The small form of a character, as far as it holds ASCII letters: besides the ASCII capitals
these are `İ`, which becomes `i` and a combining dot, and the Kelvin sign. No other character
has an ASCII letter in its small form, so words of ASCII letters can be looked up in the result. -/
def lowerChar (c : Char) : List Char :=
  if c == '\u0130' then ['i', '\u0307'] else if c == '\u212A' then ['k'] else [c.toLower]

def lowerChars (cs : List Char) : List Char :=
  cs.flatMap lowerChar

def lower (s : String) : String :=
  String.ofList (lowerChars s.toList)

/-! ## Exact words -/

/-- What follows `word` at the start of the text, if the text starts with it. -/
def afterPrefix {α : Type} [BEq α] : List α → List α → Option (List α)
  | [], cs => some cs
  | _ :: _, [] => none
  | w :: word, c :: cs => if w == c then afterPrefix word cs else none

/-- Does `word` stand somewhere in the text? -/
def containsChars {α : Type} [BEq α] (word : List α) : List α → Bool
  | [] => word.isEmpty
  | c :: cs => (afterPrefix word (c :: cs)).isSome || containsChars word cs

def contains (text word : String) : Bool :=
  containsChars word.toList text.toList

def startsWith (text word : String) : Bool :=
  (afterPrefix word.toList text.toList).isSome

def endsWith (text word : String) : Bool :=
  (afterPrefix word.toList.reverse text.toList.reverse).isSome

/-! ## Words of any case -/

/-- What follows `word`, in any case, at the start of the text. -/
def afterWord : List Char → List Char → Option (List Char)
  | [], cs => some cs
  | _ :: _, [] => none
  | w :: word, c :: cs => if sameLetter w c then afterWord word cs else none

/-- What follows the first of `words` that the text starts with. -/
def afterAnyWord (words : List String) (cs : List Char) : Option (List Char) :=
  words.findSome? fun word => afterWord word.toList cs

/-- What follows an optional ending at the start of the text: the text itself if none is there. -/
def afterOptional (endings : List String) (cs : List Char) : List Char :=
  (afterAnyWord endings cs).getD cs

/-- The leftmost place where `recognise` accepts: its offset and what follows the match. -/
def searchFrom (recognise : List Char → Option (List Char)) (offset : Nat) :
    List Char → Option (Nat × List Char)
  | [] => (recognise []).map fun rest => (offset, rest)
  | c :: cs =>
    match recognise (c :: cs) with
    | some rest => some (offset, rest)
    | none => searchFrom recognise (offset + 1) cs

/-- Start and end of the leftmost match. -/
def search (recognise : List Char → Option (List Char)) (cs : List Char) : Option (Nat × Nat) :=
  (searchFrom recognise 0 cs).map fun found => (found.1, cs.length - found.2.length)

/-- Does `recognise` accept at some place of the text? -/
def occurs (recognise : List Char → Option (List Char)) (cs : List Char) : Bool :=
  (searchFrom recognise 0 cs).isSome

/-- Does one of `words` stand somewhere in the text, in any case? -/
def mentions (words : List String) (cs : List Char) : Bool :=
  occurs (afterAnyWord words) cs

/-- The text up to its first `'\n'`. -/
def restOfLine (cs : List Char) : List Char :=
  cs.takeWhile (· != '\n')

/-- Accepts `start` when one of `words` follows it on the same line. -/
def afterWordThen (start words : List String) (cs : List Char) : Option (List Char) :=
  (afterAnyWord start cs).bind fun rest =>
    if mentions words (restOfLine rest) then some rest else none

/-- Is this the end of the text, or the line break that ends it? -/
def atEnd (cs : List Char) : Bool :=
  cs == [] || cs == ['\n']

end FlakeLint.Text
