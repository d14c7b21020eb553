-- SUMMARY: Reading settings from a file and writing them back.
import FlakeLint.Disk
import FlakeLint.Json.Reader
import FlakeLint.Json.Writer
import FlakeLint.Report.Terminal
import FlakeLint.Settings.Basic

/-!
# Settings files

Reading never fails over bad content: what cannot be used is reported and the
default stays, setting by setting. Only a number or a nesting beyond all limits
stops it; how deep a document may nest is up to what the program runs on. Files are
written whole.
-/

namespace FlakeLint

/-! ## Texts -/

/-- Turns every line break into a newline character. -/
def unifyBreaks : List Char → List Char
  | '\r' :: '\n' :: cs => '\n' :: unifyBreaks cs
  | '\r' :: cs => '\n' :: unifyBreaks cs
  | c :: cs => c :: unifyBreaks cs
  | [] => []

/-- Why a text cannot be read. -/
inductive ReadCause where
  | disk (fault : DiskFault)
  | broken (part : Utf8.Broken)
deriving DecidableEq, Repr

def ReadCause.message : ReadCause → String
  | .disk fault => fault.message
  | .broken part => part.message

/-- The text of a file, with its line breaks unified. -/
def File.text (file : File) : Except ReadCause (List Char) :=
  match Utf8.decodeStrict file.bytes with
  | .ok cs => .ok (unifyBreaks cs)
  | .error part => .error (.broken part)

/-- The file at a path, with its text. -/
def Disk.read (disk : Disk) (path : String) : Except ReadCause (File × List Char) := do
  match disk.file path with
  | .ok file => return (file, ← file.text)
  | .error fault => throw (.disk fault)

namespace Settings

/-! ## Notices -/

/-- Why a settings file cannot be used at all. -/
inductive Unusable where
  | unreadable (cause : ReadCause)
  | malformed
deriving DecidableEq, Repr

/-- What is remarkable about a settings file. -/
inductive Notice where
  | unusable (path : String) (cause : Unusable)
  | notATable (path : String)
  | unknownKey (path : String) (key : Utf16)
  | unfitValue (path : String) (key : Utf16)
deriving DecidableEq, Repr

def speaker : String := "testcopilot.core.config"

namespace Unusable

def message : Unusable → String
  | .unreadable cause => cause.message
  | .malformed => "not a JSON document"

/-- The kind of failure that the log names. -/
def kind : Unusable → String
  | .unreadable (.disk fault) => fault.cause.kind
  | .unreadable (.broken _) => "UnicodeDecodeError"
  | .malformed => "JSONDecodeError"

end Unusable

/-- What is said about a notice. Unknown keys go to the log only. -/
def Notice.messages : Notice → List Message
  | .unusable path cause => [
    .log ⟨speaker, s!"skipped: could not read config {path} ({cause.kind}: {cause.message})"⟩,
    .warning s!"Could not read config {path} ({cause.message}); using defaults."]
  | .notATable path => [.warning s!"Config {path} must be a JSON object; using defaults."]
  | .unknownKey path key =>
    [.log ⟨speaker, s!"Ignoring unknown config key {key.quoted} in {path}"⟩]
  | .unfitValue path key => [.warning s!"Invalid value for '{key.shown}' in {path}; using default."]

/-! ## Reading -/

/-- Takes over one entry of a document. Flags of checkers are added to those that are there; other
values replace the value that is there. -/
def adopt (path : String) (settings : Settings) (key : Utf16) (value : Json) :
    Settings × Option Notice :=
  match Setting.ofKey? key with
  | none => (settings, some (.unknownKey path key))
  | some setting =>
    if !setting.accepts value then (settings, some (.unfitValue path key))
    else match setting, settings.get? key, value with
      | .checkers, some (.table old), .table new =>
        (settings.put key (.table (Table.update old new)), none)
      | _, _, _ => (settings.put key value, none)

/-- Takes over the entries of a document one by one, and collects what is remarkable. -/
def adoptAll (path : String) (settings : Settings) :
    List (Utf16 × Json) → Settings × List Notice
  | [] => (settings, [])
  | (key, value) :: rest =>
    let (settings, notice) := adopt path settings key value
    let (settings, notices) := adoptAll path settings rest
    (settings, notice.toList ++ notices)

/-- The settings that a text stands for, read by a reader that goes so deep. -/
def ofText (depth : Nat) (path : String) (text : List Char) :
    Except Fault (Settings × List Notice) :=
  match Json.parseWithin depth text with
  | .ok (.table entries) => .ok (adoptAll path defaults entries)
  | .ok _ => .ok (defaults, [.notATable path])
  | .error .malformed => .ok (defaults, [.unusable path .malformed])
  | .error (.tooDeep nest) => .error (.nesting nest)
  | .error (.tooLong digits) => .error (.number (.tooLongToRead digits))

/-- Reads the settings file at a path; without one, everything has its default. -/
def load (depth : Nat) (disk : Disk) (path : String) : Except Fault (Settings × List Notice) :=
  let path := Path.normalized path
  if disk.isThere path then
    match disk.read path with
    | .ok (_, text) => ofText depth path text
    | .error cause => .ok (defaults, [.unusable path (.unreadable cause)])
  else .ok (defaults, [])

/-! ## Writing -/

/-- The text of a settings file. -/
def fileText (settings : Settings) : Except Fault String := do
  return (← Json.document .ascii (.table settings)) ++ "\n"

def save (disk : Disk) (path : String) (settings : Settings) : Disk × Except Fault Unit :=
  match settings.fileText with
  | .ok text => disk.replace path text
  | .error fault => (disk, .error fault)

end Settings

end FlakeLint
