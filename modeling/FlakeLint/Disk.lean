-- SUMMARY: Directories and files as a tree, and the operations on it that can be refused.
import FlakeLint.Path
import FlakeLint.Syntax.Source
import FlakeLint.Table

/-!
# Disks

Everything below the root of a file system. Places are lists of names from the root
down; a path is followed to its place step by step, from the root or from the working
directory on, and `..` leads back up. The tree has directories and files only. A file
may refuse to be read; the only links are those to themselves, files that lead in a
circle. Any step of writing may be refused by the system.
-/

namespace FlakeLint

/-- A file: its bytes, and the outlines that the parsers make of its text, by grammar. -/
structure File where
  bytes : List UInt8
  outlines : List (String × Outline)
  /-- Why the file cannot be read, if it cannot. A link to itself is in a circle. -/
  refusal? : Option DiskCause := none

namespace File

/-- A file that can be read and that no parser has seen. -/
def plain (bytes : List UInt8) : File where
  bytes
  outlines := []

/-- Is this a link to itself? -/
def isCircle (file : File) : Bool :=
  file.refusal? = some .circle

/-- Why a file leads nowhere if more steps follow. -/
def asDirectory (file : File) : DiskCause :=
  if file.isCircle then .circle else .notADirectory

end File

inductive Entry where
  | file (file : File)
  | directory (entries : List (String × Entry))

namespace Entry

def isDirectory : Entry → Bool
  | .directory _ => true
  | .file _ => false

def file? : Entry → Option File
  | .file content => some content
  | .directory _ => none

/-- Is this a link to itself? -/
def isCircle : Entry → Bool
  | .file content => content.isCircle
  | .directory _ => false

/-- What is found at a place below an entry. -/
def at? : Entry → List String → Option Entry
  | entry, [] => some entry
  | .directory entries, name :: rest => (Table.get? entries name).bind fun entry => entry.at? rest
  | .file _, _ :: _ => none

/-- Puts something at a place. Directories on the way must be there; otherwise nothing changes. -/
def put (new : Entry) : Entry → List String → Entry
  | _, [] => new
  | .directory entries, [name] => .directory (Table.put entries name new)
  | .directory entries, name :: rest =>
    match Table.get? entries name with
    | some entry => .directory (Table.put entries name (put new entry rest))
    | none => .directory entries
  | .file content, _ :: _ => .file content

/-- Takes away what is at a place, if anything is. -/
def remove : Entry → List String → Entry
  | .directory entries, [name] => .directory (Table.erase entries name)
  | .directory entries, name :: rest =>
    match Table.get? entries name with
    | some entry => .directory (Table.put entries name (remove entry rest))
    | none => .directory entries
  | entry, _ => entry

mutual
/-- The files of an entry with their paths; `path` is the path of the entry itself. -/
def filesAt (path : String) : Entry → List (String × File)
  | .file content => [(path, content)]
  | .directory entries => filesIn (path ++ "/") entries

/-- The files of all entries; `base` is the path of their directory with a slash behind it. -/
def filesIn (base : String) : List (String × Entry) → List (String × File)
  | [] => []
  | (name, entry) :: rest => entry.filesAt (base ++ name) ++ filesIn base rest
end

def files : Entry → List (String × File)
  | .file _ => []
  | .directory entries => filesIn "" entries

end Entry

/-! ## Systems -/

/-- A step of writing, with the places that it is about. -/
inductive WriteStep where
  | makeDirectory (place : List String)
  | create (place : List String)
  | fill (place : List String)
  | move (source target : List String)
  | remove (place : List String)
deriving DecidableEq, Repr

/-- What writing depends on besides the tree: permissions, room, and chance. And what is made of
links in a circle. -/
structure System where
  /-- Why a step is refused that the tree allows, if it is. -/
  refusal? : WriteStep → Option DiskCause
  /-- How many bytes are written to a file before writing is refused. -/
  room : Nat
  /-- A name for a new file beside files with these names. Chance may hit upon one of them. -/
  newName : List String → String
  /-- Is it a fault to ask which path a link to itself stands for? Newer interpreters answer with the
  path of the link. -/
  faultsOnCircles : Bool

namespace System

/-- A system that refuses nothing and always finds a new name. -/
def granting : System where
  refusal? _ := none
  room := 0
  newName names := String.ofList ("tmp".toList ++ names.flatMap String.toList ++ ".tmp".toList)
  faultsOnCircles := true

def check (system : System) (step : WriteStep) : Except DiskCause Unit :=
  match system.refusal? step with
  | some cause => .error cause
  | none => .ok ()

end System

/-! ## Disks -/

/-- A file system, with the absolute paths of a project and of the working directory, and the system
through which it is read and written. -/
structure Disk where
  home : String
  cwd : String := home
  root : Entry
  system : System := .granting

namespace Disk

/-! ## Following paths -/

/-- Follows steps from a place. All but the last must lead into a directory; the last may lead to
something that is not there. Above the root is the root. -/
def follow (root : Entry) (place : List String) : List String → Except DiskCause (List String)
  | [] => .ok place
  | step :: rest =>
    match root.at? place with
    | some (.directory _) =>
      if step = ".." then follow root place.dropLast rest else follow root (place ++ [step]) rest
    | some (.file file) => .error file.asDirectory
    | none => .error .notFound

/-- The steps to where a path starts. -/
def start (disk : Disk) (path : String) : List String :=
  if Path.isAbsolute path then [] else Path.steps disk.cwd

/-- The place that a path leads to. -/
def place (disk : Disk) (path : String) : Except DiskCause (List String) :=
  follow disk.root [] (disk.start path ++ Path.steps path)

/-- What a path leads to in the tree. -/
def atPath? (disk : Disk) (path : String) : Option Entry :=
  match disk.place path with
  | .ok place => disk.root.at? place
  | .error _ => none

/-- Does a path lead to a link in a circle? -/
def isCircle (disk : Disk) (path : String) : Bool :=
  match disk.place path with
  | .ok place => (disk.root.at? place).any Entry.isCircle
  | .error cause => cause = .circle

/-- What a path leads to. A circle leads nowhere. -/
def find? (disk : Disk) (path : String) : Option Entry :=
  (disk.atPath? path).filter fun entry => !entry.isCircle

def isThere (disk : Disk) (path : String) : Bool :=
  (disk.find? path).isSome

def isDirectory (disk : Disk) (path : String) : Bool :=
  (disk.find? path).any Entry.isDirectory

/-! ## Reading -/

/-- The file at a path, if it can be read. -/
def file (disk : Disk) (path : String) : Except DiskFault File :=
  match disk.place path with
  | .error cause => .error ⟨cause, path⟩
  | .ok place =>
    match disk.root.at? place with
    | some (.file file) =>
      match file.refusal? with
      | some cause => .error ⟨cause, path⟩
      | none => .ok file
    | some (.directory _) => .error ⟨.isADirectory, path⟩
    | none => .error ⟨.notFound, path⟩

/-- How a path is shown; a fault where it leads to a circle and the system makes a fault of that. -/
def shown (disk : Disk) (path : String) : Except Fault String :=
  if disk.system.faultsOnCircles && disk.isCircle path then
    .error (.linkCircle ("/" ++ Path.join (Path.stepsFromRoot disk.cwd path)))
  else .ok (Path.shown disk.home disk.cwd path)

/-! ## Making directories -/

/-- Makes one directory where nothing is yet. -/
def makeDirectory (system : System) (root : Entry) (steps : List String) :
    Except DiskCause Entry := do
  let place ← follow root [] steps
  if (root.at? place).isSome then throw .exists
  system.check (.makeDirectory place)
  return (Entry.directory []).put root place

/-- Is there a directory at the end of these steps? -/
def isDirectoryAt (root : Entry) (steps : List String) : Bool :=
  match follow root [] steps with
  | .ok place => (root.at? place).any Entry.isDirectory
  | .error _ => false

/-- Makes a directory and those above it, as far as they are missing below `start`. What has been made
stays, also when a later step is refused; the refusal names the steps up to it. -/
def makeDirectories (system : System) (root : Entry) (start steps : List String) :
    Entry × Option (DiskCause × List String) :=
  match makeDirectory system root (start ++ steps) with
  | .ok root => (root, none)
  | .error cause =>
    if isDirectoryAt root (start ++ steps) then (root, none)
    else if _h : cause = .notFound ∧ steps ≠ [] then
      match makeDirectories system root start steps.dropLast with
      | (root, some refusal) => (root, some refusal)
      | (root, none) =>
        match makeDirectory system root (start ++ steps) with
        | .ok root => (root, none)
        | .error cause =>
          if isDirectoryAt root (start ++ steps) then (root, none) else (root, some (cause, steps))
    else (root, some (cause, steps))
termination_by steps.length
decreasing_by
  have := List.length_pos_iff.2 _h.2
  simp only [List.length_dropLast]
  omega

/-! ## Writing -/

/-- Does a path end in a step that only points to a directory, so that nothing can take its place? -/
def endsInPointer (path : String) : Bool :=
  let name := Path.name path
  name = "" || name = ".."

/-- The path of some steps, written like `path`: absolute or not. -/
def spelled (path : String) (steps : List String) : String :=
  Path.normalized (String.ofList (Path.rootOf path.toList) ++ Path.join steps)

/-- The steps from where a path starts to the directory that it lies in. -/
def stepsAbove (path : String) : List String :=
  (Path.steps path).dropLast

/-- The steps from the root to the directory that a path lies in. -/
def way (disk : Disk) (path : String) : List String :=
  disk.start path ++ stepsAbove path

/-- Makes the directory that a path lies in. -/
def prepare (disk : Disk) (path : String) : Disk × Except Fault Unit :=
  match makeDirectories disk.system disk.root (disk.start path) (stepsAbove path) with
  | (root, none) => ({ disk with root }, .ok ())
  | (root, some (cause, steps)) =>
    ({ disk with root }, .error (.disk ⟨cause, spelled path steps⟩))

/-- Puts text into a file whose directory is there. A directory is never overwritten, nor is a file
that cannot be read. -/
def overwrite (disk : Disk) (path text : String) : Except Fault Disk := do
  match disk.place path with
  | .error cause => throw (.disk ⟨cause, path⟩)
  | .ok place =>
    match disk.root.at? place with
    | some (.directory _) => throw (.disk ⟨.isADirectory, path⟩)
    | some (.file ⟨_, _, some cause⟩) => throw (.disk ⟨cause, path⟩)
    | _ =>
      let file : File := .plain (Utf8.encode text.toList)
      return { disk with root := (Entry.file file).put disk.root place }

/-- Makes an empty file with a new name in the directory that some steps lead to. -/
def createTemporary (system : System) (root : Entry) (steps : List String) :
    Except DiskCause (Entry × List String) := do
  let above ← follow root [] steps
  match root.at? above with
  | some (.directory entries) =>
    let name := system.newName (Table.keys entries)
    if (Table.get? entries name).isSome then throw .exists
    let place := above ++ [name]
    system.check (.create place)
    return ((Entry.file (.plain [])).put root place, place)
  | some (.file file) => throw file.asDirectory
  | none => throw .notFound

/-- Writes bytes to an empty file. Where that is refused, some of them may have been written. -/
def fill (system : System) (root : Entry) (place : List String) (bytes : List UInt8) :
    Entry × Except DiskCause Unit :=
  let written : File → Entry := fun file => (Entry.file file).put root place
  match system.check (.fill place) with
  | .ok () => (written (.plain bytes), .ok ())
  | .error cause => (written (.plain (bytes.take system.room)), .error cause)

/-- Moves a file to where a path leads, in a single step and over the file that may be there. -/
def moveOnto (disk : Disk) (source : List String) (path : String) : Except DiskCause Disk :=
  if endsInPointer path then .error .busy
  else do
    let target ← disk.place path
    match disk.root.at? source, disk.root.at? target with
    | none, _ => .error .notFound
    | some _, some (.directory _) => .error .isADirectory
    | some entry, _ => do
      disk.system.check (.move source target)
      return { disk with root := entry.put (disk.root.remove source) target }

/-- Removes a file. If even that is refused, the file stays and nothing is said about it. -/
def discard (system : System) (root : Entry) (place : List String) : Entry :=
  match system.check (.remove place) with
  | .ok () => root.remove place
  | .error _ => root

/-- Replaces a file after making its directory: the text goes to a temporary file beside it, which is
then moved onto it. Where that is refused, the temporary file is removed. -/
def replace (disk : Disk) (path text : String) : Disk × Except Fault Unit :=
  match disk.prepare path with
  | (disk, .error fault) => (disk, .error fault)
  | (disk, .ok ()) =>
    match createTemporary disk.system disk.root (disk.way path) with
    | .error cause => (disk, .error (.disk ⟨cause, path⟩))
    | .ok (created, temporary) =>
      let (filled, filling) := fill disk.system created temporary (Utf8.encode text.toList)
      let done : Except DiskCause Disk := do
        filling
        { disk with root := filled }.moveOnto temporary path
      match done with
      | .ok disk => (disk, .ok ())
      | .error cause =>
        ({ disk with root := discard disk.system filled temporary },
          .error (.disk ⟨cause, path⟩))

/-! ## Comparing -/

/-- The files of the project, with their paths from its home on. -/
def files (disk : Disk) : List (String × File) :=
  ((disk.root.at? (Path.steps disk.home)).map Entry.files).getD []

/-- The files that are new or have other bytes than before. -/
def changes (before after : Disk) : List (String × File) :=
  let old := before.files
  after.files.filter fun (path, file) =>
    !((Table.get? old path).any fun earlier => earlier.bytes == file.bytes)

end Disk

end FlakeLint
