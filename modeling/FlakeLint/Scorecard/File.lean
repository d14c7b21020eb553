-- SUMMARY: Writing a scorecard to a file.
import FlakeLint.Disk
import FlakeLint.Scorecard.Layout

/-!
# Scorecard files

Pictures are encoded by an imaging library, which may be missing. The directory
of the picture is made before anything is drawn.
-/

namespace FlakeLint

/-- An imaging library: the font files it can load, and what it writes for a picture. -/
structure Imaging where
  fonts : List String
  fileText : String

namespace Scorecard

/-- The absolute path of a picture. -/
def targetPath (home path : String) : String :=
  if Path.isAbsolute path then Path.normalized path else Path.normalized (home ++ "/" ++ path)

/-- The outcome of writing: the disk as it is now, the strokes drawn, and the path of the file. -/
structure Written where
  disk : Disk
  strokes : List Stroke
  path : Except Fault String

/-- Draws a scorecard and saves it. -/
def write (disk : Disk) (imaging : Option Imaging) (codebase : Codebase) (path : String) :
    Written :=
  match imaging with
  | none => ⟨disk, [], .error .imagingMissing⟩
  | some imaging =>
    let path := targetPath disk.home path
    match disk.prepare path with
    | (disk, .error fault) => ⟨disk, [], .error fault⟩
    | (disk, .ok ()) =>
      match draw imaging.fonts codebase path with
      | .error fault => ⟨disk, [], .error fault⟩
      | .ok strokes =>
        match disk.overwrite path imaging.fileText with
        | .error fault => ⟨disk, strokes, .error fault⟩
        | .ok disk => ⟨disk, strokes, .ok path⟩

end Scorecard

end FlakeLint
