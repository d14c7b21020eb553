-- SUMMARY: What a name tells: retrying, wrapping library commands, background requests.
import FlakeLint.Text.Words

/-!
# Names

Word lists by which functions and aliases are judged. Names are compared
without regard to case, and mostly a word anywhere in the name is enough.
-/

namespace FlakeLint.Names

open FlakeLint.Text

/-! ## Retrying -/

/-- Words in the names of functions that wait or try again. -/
def retryWords : List String :=
  ["retry", "wait", "poll", "until", "repeat", "attempt", "check"]

def retryEndings : List String :=
  ["until", "for", "with", "while", "loop"]

/-- A retry word with an optional ending. -/
def afterRetryName (cs : List Char) : Option (List Char) :=
  (afterAnyWord retryWords cs).map (afterOptional retryEndings)

/-- The same with one ending more. -/
def afterRetryHelperName (cs : List Char) : Option (List Char) :=
  (afterAnyWord retryWords cs).map (afterOptional (retryEndings ++ ["success"]))

def isRetryName (name : String) : Bool :=
  occurs afterRetryName name.toList

def isRetryHelperName (name : String) : Bool :=
  occurs afterRetryHelperName name.toList

/-! ## Helpers -/

/-- Verbs of helpers that likely run library commands. -/
def helperVerbs : List String :=
  ["login", "fill", "check", "verify", "validate", "wait", "click", "type", "select", "submit",
    "navigate", "setup"]

/-- What such a helper may act on. -/
def helperObjects : List String :=
  ["user", "form", "element", "page", "data", "field", "button", "modal", "correctly"]

/-- Beginnings of names that come from the library or an assertion package. -/
def helperBeginnings : List String :=
  ["cy", "cypress", "should", "expect", "assert"]

/-- Accepts a helper verb, with or without an object, that ends the name. -/
def afterHelperVerb (cs : List Char) : Option (List Char) :=
  (afterAnyWord helperVerbs cs).filter fun rest =>
    atEnd rest || helperObjects.any fun object =>
      match afterWord object.toList rest with
      | some rest => atEnd rest
      | none => false

def isHelperName (name : String) : Bool :=
  occurs afterHelperVerb name.toList || (afterAnyWord helperBeginnings name.toList).isSome

/-- Objects that collect helpers. -/
def helperNamespaces : List String :=
  ["page", "helpers", "utils", "commands"]

/-! ## Background requests -/

/-- Words in the aliases of requests that no test outcome depends on. -/
def backgroundWords : List String :=
  ["analytic", "track", "log", "beacon", "metric", "stat"]

def isBackgroundAlias (name : String) : Bool :=
  mentions backgroundWords name.toList

end FlakeLint.Names
