-- SUMMARY: Changing settings: single values, resets, and overrides for one run.
import FlakeLint.Settings.Basic
import FlakeLint.Text.Words

/-!
# Editing settings

Keys and values arrive as strings and are read as the setting demands. Settings are changed
in place. Settings that were taken over from elsewhere may have a shape that an
edit cannot deal with. Overrides are applied to a copy.
-/

namespace FlakeLint.Settings

/-- What begins the name of a single checker's flag. -/
def flagMark : String := "checkers."

/-- The checker whose flag a key names, if it names a flag at all. -/
def flagOf? (key : String) : Option String :=
  (Text.afterPrefix flagMark.toList key.toList).map String.ofList

def onWords : List String := ["true", "1", "yes", "on"]

def offWords : List String := ["false", "0", "no", "off"]

def readFlag (key raw : String) : Except Fault Bool :=
  let small := Text.lower raw
  if onWords.contains small then .ok true
  else if offWords.contains small then .ok false
  else .error (.edit (.notABool key raw))

/-! ## Changes in place -/

/-- A change of settings in place. What it has done stays also where it is refused later on. -/
abbrev Change (α : Type) := ExceptT Fault (StateM Settings) α

namespace Change

/-- How a change of some settings ends, and the settings that it leaves. -/
def run {α : Type} (change : Change α) (settings : Settings) : Except Fault α × Settings :=
  StateT.run (ExceptT.run change) settings

/-- What is there under a key; if nothing is, the given value is put there first. -/
def setDefault (key : Utf16) (value : Json) : Change Json := do
  match Table.get? (← get) key with
  | some found => return found
  | none =>
    modify fun settings => settings.put key value
    return value

def write (key : Utf16) (value : Json) : Change Unit :=
  modify fun settings => settings.put key value

/-- Switches one checker on or off. -/
def setFlag (key checker raw : String) : Change Unit := do
  if (Checker.ofKey? checker).isNone then throw (.edit (.unknownChecker checker))
  let flag ← (readFlag key raw : Except Fault Bool)
  match ← setDefault Setting.checkers.key (.table []) with
  | .table flags => write Setting.checkers.key (.table (Table.put flags ↑checker (.bool flag)))
  | _ => throw .wrongType

/-- Appends a text to a setting that is a list, unless it is in there already. -/
def append (key raw : String) : Change Unit := do
  let item : Utf16 := raw
  match ← setDefault key (.list []) with
  | .list items =>
    unless items.any (Json.alike (.text item)) do
      write key (.list (items ++ [.text item]))
  | .text text => unless Text.containsChars item.units text.units do throw .wrongShape
  | .table entries => unless (Table.keys entries).contains item do throw .wrongShape
  | .null | .bool _ | .number _ => throw .wrongType

/-- Sets the setting with a given name from text. A list gets the text as a further item. -/
def set (key raw : String) : Change Unit :=
  match flagOf? key with
  | some checker => setFlag key checker raw
  | none =>
    match Setting.ofKey? key with
    | none => throw (.edit (.unknownKey key))
    | some .explain | some .fileSummary | some .codebase => do
      write key (.bool (← (readFlag key raw : Except Fault Bool)))
    | some .format =>
      if ReportFormat.names.contains raw then write key (.text raw)
      else throw (.edit (.notAFormat key raw ReportFormat.names))
    | some .scorecardPath =>
      if Text.trim raw = "" then throw (.edit (.emptyValue key))
      else write key (.text (Text.trim raw))
    | some .exclude => append key raw
    | some .checkers => throw (.edit (.wholeTable key))

/-- Gives a setting its default again. -/
def unset (key : String) : Change Unit :=
  match Setting.ofKey? key with
  | none => throw (.edit (.unknownKey key))
  | some setting => write key setting.default

end Change

/-- The settings that a change makes of others. -/
def changed (settings : Settings) (change : Change Unit) : Except Fault Settings :=
  match change.run settings with
  | (.ok (), settings) => .ok settings
  | (.error fault, _) => .error fault

def set (settings : Settings) (key raw : String) : Except Fault Settings :=
  settings.changed (Change.set key raw)

def unset (settings : Settings) (key : String) : Except Fault Settings :=
  settings.changed (Change.unset key)

/-! ## Overrides -/

/-- Appends those items that are not there yet; of equal new items only the first is taken. -/
def extend (old new : List Json) : List Json :=
  new.foldl (fun items item => if items.any (Json.alike item) then items else items ++ [item]) old

/-- Applies one override: nothing for null, more items for a list, a new value otherwise. -/
def override (settings : Settings) (key : Utf16) (value : Json) : Except Fault Settings :=
  match value, Setting.ofKey? key with
  | .null, _ => .ok settings
  | _, none => .error (.edit (.unknownKey key.shown))
  | .list new, some _ =>
    match (settings.get? key).getD (.list []) with
    | .list old => .ok (settings.put key (.list (extend old new)))
    | _ => .error .wrongShape
  | value, some _ => .ok (settings.put key value)

/-- Applies overrides one after the other. -/
def merge (settings : Settings) (overrides : List (Utf16 × Json)) : Except Fault Settings :=
  overrides.foldlM (fun settings entry => settings.override entry.1 entry.2) settings

end FlakeLint.Settings
