-- SUMMARY: Paths as text: components, names, suffixes.
import FlakeLint.Text.Blank
import FlakeLint.Text.Words

/-!
# Paths

A path is split at slashes; empty components and single dots mean nothing. A
leading slash, or exactly two, is a component of its own. Backslashes are
ordinary characters.
-/

namespace FlakeLint.Path

open FlakeLint.Text

/-- The leading slashes that belong to a path: none, one, or exactly two. -/
def rootOf (cs : List Char) : List Char :=
  match cs.takeWhile (· == '/') with
  | [] => []
  | ['/', '/'] => ['/', '/']
  | _ => ['/']

/-- The components below the root. -/
def stepsOf (cs : List Char) : List (List Char) :=
  (splitOn '/' cs).filter fun step => step != [] && step != ['.']

def steps (path : String) : List String :=
  (stepsOf path.toList).map String.ofList

def isAbsolute (path : String) : Bool :=
  !(rootOf path.toList).isEmpty

/-- All components, the root first if there is one. -/
def parts (path : String) : List String :=
  let root := rootOf path.toList
  (if root.isEmpty then [] else [String.ofList root]) ++ steps path

def join (steps : List String) : String :=
  String.intercalate "/" steps

/-- The path written without components that mean nothing. -/
def normalized (path : String) : String :=
  let text := String.ofList (rootOf path.toList) ++ join (steps path)
  if text = "" then "." else text

/-- The last component below the root, or nothing. -/
def name (path : String) : String :=
  (steps path).getLast?.getD ""

/-- The components of the directory that holds the path. -/
def parentParts (path : String) : List String :=
  if (steps path).isEmpty then parts path else (parts path).dropLast

/-- The ending of the name from its last dot on. A dot that starts or ends the name does not count. -/
def suffix (path : String) : String :=
  let reversed := (name path).toList.reverse
  let after := reversed.takeWhile (· != '.')
  let before := (reversed.dropWhile (· != '.')).drop 1
  if after.isEmpty || before.isEmpty then ""
  else String.ofList ('.' :: after.reverse)

/-- Backslashes turned into slashes. -/
def slashed (path : String) : String :=
  String.ofList (path.toList.map fun c => if c == '\\' then '/' else c)

/-! ## Relative to a home directory -/

/-- Takes every `..` back together with the step before it, if there is one; `done` holds the steps so
far, last first. -/
def settle (done : List String) : List String → List String
  | [] => done.reverse
  | step :: rest => if step = ".." then settle done.tail rest else settle (step :: done) rest

/-- The steps from the file system's root to a path, which starts in the directory `cwd` unless it is
absolute. -/
def stepsFromRoot (cwd path : String) : List String :=
  settle [] (if isAbsolute path then steps path else steps cwd ++ steps path)

/-- How a path is shown: from `home` on if it lies there, and from the root on otherwise. -/
def shown (home cwd path : String) : String :=
  let place := stepsFromRoot cwd path
  slashed <| match afterPrefix (steps home) place with
    | some rest => normalized (join rest)
    | none => "/" ++ join place

end FlakeLint.Path
