-- SUMMARY: Finding the test files of a project: name rules, exclusions, the search itself.
import FlakeLint.Disk
import FlakeLint.Json.Value

/-!
# Discovery

A test file is a JavaScript or TypeScript file with a test marker in its name or
a test directory above it. The search leaves out directories that never hold
tests, and everything that an exclusion matches.
-/

namespace FlakeLint.Discovery

open FlakeLint.Text

/-! ## Names -/

def extensions : List String :=
  [".js", ".jsx", ".mjs", ".cjs", ".ts", ".tsx", ".mts", ".cts"]

def nameMarkers : List String :=
  [".cy.", ".spec.", ".test."]

/-- Directories whose files are tests whatever their names. -/
def testDirectories : List String :=
  ["cypress", "e2e", "playwright"]

/-- Directories that are never searched. -/
def skippedDirectories : List String :=
  ["node_modules", ".git", "dist", "build", "coverage", ".next", ".nuxt", ".output", ".cache",
    ".turbo", ".svn", ".hg", "__pycache__", ".venv", "venv", "screenshots", "videos"]

def isTestFile (path : String) : Bool :=
  let name := Path.name path
  extensions.any (endsWith name) &&
    (nameMarkers.any (contains name) ||
      (Path.parentParts path).any testDirectories.contains)

/-! ## Exclusions -/

/-- What a path must not match. Settings may hold things that are no text; they match nothing or
cannot even be compared with a path. -/
inductive Exclusion where
  | pattern (text : Utf16)
  | never
  | unfit (fault : Fault)
deriving DecidableEq, Repr

/-- The text without the slashes at its end. -/
def dropSlashes (text : String) : String :=
  String.ofList (text.toList.reverse.dropWhile (· == '/')).reverse

/-- Is a component of the path equal to the pattern or, if the pattern holds a slash, does the path
lie below it? -/
def matchesPattern (path pattern : String) : Bool :=
  (Path.parts path).contains pattern ||
    (contains pattern "/" && startsWith path (dropSlashes pattern ++ "/"))

/-- Does a text match a path? A path is a string, so a text with half a character matches none. -/
def matchesText (path : String) (text : Utf16) : Bool :=
  text.string?.any (matchesPattern path)

namespace Exclusion

def covers (path : String) : Exclusion → Except Fault Bool
  | .pattern text => .ok (matchesText path text)
  | .never => .ok false
  | .unfit fault => .error fault

/-- An item of a list of exclusions. Lists and tables that hold a slash look like patterns at first. -/
def ofItem : Json → Exclusion
  | .text text => .pattern text
  | .list items => if items.any (Json.alike (.ofString "/")) then .unfit .wrongShape else .never
  | .table entries => if (Table.keys entries).contains "/" then .unfit .wrongShape else .never
  | .null | .bool _ | .number _ => .unfit .wrongType

/-- The exclusions of a setting: the items of a list, the keys of a table, the characters of a text.
Values that count as false stand for none. -/
def ofSetting (setting : Json) : Except Fault (List Exclusion) :=
  if !setting.isTrue then .ok []
  else match setting with
    | .list items => .ok (items.map ofItem)
    | .table entries => .ok ((Table.keys entries).map pattern)
    | .text text => .ok (text.glyphs.map fun glyph => .pattern ⟨glyph.units⟩)
    | .null | .bool _ | .number _ => .error .wrongType

end Exclusion

def isExcluded (exclusions : List Exclusion) (path : String) : Except Fault Bool :=
  exclusions.anyM fun exclusion => exclusion.covers path

/-! ## Searching -/

/-- Is a file taken? `base` is its directory, with a slash behind it. -/
def takesFile (exclusions : List Exclusion) (base name : String) : Except Fault Bool := do
  let path := Path.slashed base ++ name
  if isTestFile path then return !(← isExcluded exclusions path) else return false

/-- Is a directory searched? -/
def entersDirectory (exclusions : List Exclusion) (base name : String) : Except Fault Bool := do
  if skippedDirectories.contains name then return false
  return !(← isExcluded exclusions (Path.slashed base ++ name))

mutual
/-- The test files of an entry in the directory `base`, as paths from the start of the search. -/
def atEntry (exclusions : List Exclusion) (base name : String) :
    Entry → Except Fault (List String)
  | .file _ => do
    if ← takesFile exclusions base name then return [base ++ name] else return []
  | .directory entries => do
    if ← entersDirectory exclusions base name then below exclusions (base ++ name ++ "/") entries
    else return []

/-- The test files of all entries of the directory `base`. -/
def below (exclusions : List Exclusion) (base : String) :
    List (String × Entry) → Except Fault (List String)
  | [] => .ok []
  | (name, entry) :: rest => do
    return (← atEntry exclusions base name entry) ++ (← below exclusions base rest)
end

/-- What stands before the paths of files that are found below a directory. -/
def startOf (path : String) : String :=
  let text := Path.normalized path
  if endsWith text "/" then text else text ++ "/"

/-- The test files below a path, in order; a path to a file stands for that file alone, and one that
leads nowhere for no files. The exclusions are looked at only when there is a search. -/
def testFiles (disk : Disk) (path : String) (setting : Json) : Except Fault (List String) := do
  match disk.find? path with
  | some (.file _) => return [Path.normalized path]
  | found =>
    let exclusions ← Exclusion.ofSetting setting
    match found with
    | some (.directory entries) =>
      let files ← below exclusions "" entries
      return (files.map fun file => startOf path ++ file).mergeSort
    | _ => return []

end FlakeLint.Discovery
