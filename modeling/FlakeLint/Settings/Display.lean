-- SUMMARY: Settings as they are shown to people.
import FlakeLint.Settings.Basic

/-!
# Showing settings

Lists and tables go on one line; a flag of a table shows as on or off. What is shown
may hold whatever a document may hold.
-/

namespace FlakeLint

namespace Json

/-- A value that stands for itself, as text. Lists and tables have no such text. -/
def plainText : Json → Except Fault Utf16
  | .null => .ok "None"
  | .bool true => .ok "True"
  | .bool false => .ok "False"
  | .number n => n.text.map Utf16.ofString
  | .text value => .ok value
  | .list _ | .table _ => .error .wrongType

/-- The text of an item that must be text. -/
def itemText : Json → Except Fault Utf16
  | .text value => .ok value
  | _ => .error .wrongType

end Json

namespace Settings

/-- What stands for a list or table without entries. -/
def emptyText : Utf16 := "(empty)"

/-- A flag of a table with its name. -/
def flagText (name : Utf16) (flag : Json) : Utf16 :=
  name ++ ↑(if flag.isTrue then "=on" else "=off")

def display : Json → Except Fault Utf16
  | .list [] => .ok emptyText
  | .list items => do return Utf16.intercalate ", " (← items.mapM Json.itemText)
  | .table [] => .ok emptyText
  | .table entries =>
    .ok (Utf16.intercalate ", " (entries.map fun (name, flag) => flagText name flag))
  | value => value.plainText

end Settings

end FlakeLint
