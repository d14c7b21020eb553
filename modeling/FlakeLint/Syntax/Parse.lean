-- SUMMARY: From a source text to a syntax tree: choice of grammar, retry, errors.
import FlakeLint.Path
import FlakeLint.Syntax.Source
import FlakeLint.Text.Words

/-!
# Parsing

The parsers themselves are given: for each grammar at hand, the outline of the
source. The grammar follows from the file name. Plain JavaScript may carry type
annotations, so a tree with errors is tried again as TypeScript.
-/

namespace FlakeLint

/-- The grammars that there are parsers for, and what they make of one source. -/
structure Parsers where
  grammars : List String
  outlines : List (String × Outline)

def defaultGrammar : String := "javascript"

/-- The grammar to retry with when no grammar was asked for. -/
def retryGrammar? (grammar : String) : Option String :=
  if grammar = defaultGrammar then some "typescript" else none

def grammarForPath (path : String) : String :=
  match Text.lower (Path.suffix path) with
  | ".ts" | ".mts" | ".cts" => "typescript"
  | ".tsx" => "tsx"
  | _ => defaultGrammar

mutual
/-- The first node, in source order, that is an error or was made up by the parser. Nodes without an
error at or below them are not looked into. -/
def Node.firstError? : Node → Option Node
  | .mk head children =>
    if head.kind = .error || head.missing then some (.mk head children)
    else if head.hasError then firstErrorOf? children
    else none

def firstErrorOf? : List Node → Option Node
  | [] => none
  | n :: ns =>
    match n.firstError? with
    | some found => some found
    | none => firstErrorOf? ns
end

/-- A source with its tree, and whether the second grammar had to be used. -/
structure ParseResult where
  parsed : Parsed
  retried : Bool

namespace Parsers

/-- The tree for a grammar; fails if there is no parser for it. -/
def root (parsers : Parsers) (path grammar : String) (bytes : List UInt8) : Except Fault Node :=
  match parsers.grammars.contains grammar, parsers.outlines.lookup grammar with
  | true, some outline => .ok (outline.place ⟨bytes.toArray⟩ (pointsOf bytes))
  | _, _ => .error (.parse ⟨path, none, .unavailable grammar⟩)

/-- Fails with the line of the first error if the tree has one. -/
def checked (path grammar : String) (bytes : List UInt8) (retried : Bool) (root : Node) :
    Except Fault ParseResult := do
  if root.head.hasError then
    let line ← root.firstError?.mapM Node.startLine
    throw (.parse ⟨path, line, .malformed grammar⟩)
  return ⟨⟨root, grammar, byteLines bytes⟩, retried⟩

/-- Parses a source with the grammar asked for, or with the one that its path suggests and, should
that fail, the retry grammar. -/
def parse (parsers : Parsers) (path content : String) (asked : Option String) :
    Except Fault ParseResult := do
  let grammar := match asked with
    | some grammar => if grammar = "" then grammarForPath path else grammar
    | none => grammarForPath path
  let bytes := Utf8.encode content.toList
  let root ← parsers.root path grammar bytes
  match asked, retryGrammar? grammar, root.head.hasError with
  | none, some other, true =>
    let second ← parsers.root path other bytes
    if second.head.hasError then checked path grammar bytes false root
    else checked path other bytes true second
  | _, _, _ => checked path grammar bytes false root

end Parsers

end FlakeLint
