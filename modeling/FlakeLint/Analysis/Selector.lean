-- SUMMARY: Selectors: whether two target the same element, whether one is for navigation.
import FlakeLint.Text.Blank
import FlakeLint.Text.Words

/-!
# Selectors

Two selectors are related if one contains the other once quotes are dropped, or
if their first `#id` or their first `.class` agree.
-/

namespace FlakeLint.Selector

open FlakeLint.Text

/-- The selector without surrounding white space and without quotes. -/
def clean (selector : String) : List Char :=
  (stripBy isBlank selector.toList).filter fun c => c != '\'' && c != '"'

/-- Characters of an id or a class name. -/
def isNameChar (c : Char) : Bool :=
  c.isAlphanum || c == '_' || c == '-'

/-- The name after the first `mark` that has one. -/
def fragment? (mark : Char) : List Char → Option (List Char)
  | [] => none
  | c :: cs =>
    let name := cs.takeWhile isNameChar
    if c == mark && !name.isEmpty then some name else fragment? mark cs

def sameFragment (mark : Char) (a b : List Char) : Bool :=
  match fragment? mark a, fragment? mark b with
  | some x, some y => x == y
  | _, _ => false

/-- Do two selectors plausibly target the same family of elements? -/
def related (a b : String) : Bool :=
  a == b ||
  let x := clean a
  let y := clean b
  x == y || containsChars x y || containsChars y x || sameFragment '#' x y || sameFragment '.' x y

def navigationWords : List String :=
  ["nav", "menu", "tab", "link", "button"]

def leavingWords : List String :=
  ["close", "cancel", "back", "next", "prev", "skip"]

/-- Does the selector name a control that moves on or closes something? -/
def isNavigation (selector : String) : Bool :=
  occurs (afterWordThen navigationWords leavingWords) selector.toList

end FlakeLint.Selector
