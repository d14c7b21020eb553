-- SUMMARY: A project as a JSON table, and the disk that it stands for.
import FlakeLint.Disk
import FlakeLint.Syntax.Exchange
import FlakeLint.Text.Digits

/-!
# Snapshots

A project can be handed over as a table from paths to files, relative to its home.
A file is a table with its text, or with its bytes in hexadecimal digits, and with the outlines
that parsers made of it; null stands for an empty directory.
-/

namespace FlakeLint

namespace Snapshot

/-- The bytes that pairs of hexadecimal digits stand for. -/
def bytesOfHex? : List Char → Option (List UInt8)
  | [] => some []
  | high :: low :: rest => do
    let high ← (Text.baseDigit? high).filter (· < 16)
    let low ← (Text.baseDigit? low).filter (· < 16)
    return UInt8.ofNat (high * 16 + low) :: (← bytesOfHex? rest)
  | [_] => none

def fileOfJson? (entries : List (Utf16 × Json)) : Option File := do
  let bytes ← match Table.get? entries "text", Table.get? entries "hex" with
    | some (.text text), _ => some (Utf8.encode text.shown.toList)
    | _, some (.text digits) => bytesOfHex? digits.shown.toList
    | _, _ => none
  let outlines ← match Table.get? entries "trees" with
    | some (.table trees) => outlineTable? trees
    | _ => some []
  return { bytes, outlines }

def entryOfJson? : Json → Option Entry
  | .null => some (.directory [])
  | .table entries => (fileOfJson? entries).map Entry.file
  | _ => none

/-- Puts an entry at some steps below a place. The directories above it are made. -/
def place (root : Entry) (home steps : List String) (entry : Entry) : Entry :=
  let root := (Disk.makeDirectories .granting root [] (home ++ steps).dropLast).1
  match entry, root.at? (home ++ steps) with
  | .directory [], some (.directory _) => root
  | _, _ => entry.put root (home ++ steps)

def fill (root : Entry) (home : List String) : List (Utf16 × Json) → Option Entry
  | [] => some root
  | (path, value) :: rest => do
    fill (place root home (Path.steps path.shown) (← entryOfJson? value)) home rest

end Snapshot

/-- The disk that a table from paths to files stands for. -/
def Disk.ofSnapshot? (home : String) (files : List (Utf16 × Json)) : Option Disk := do
  let empty := Snapshot.place (.directory []) (Path.steps home) [] (.directory [])
  let root ← Snapshot.fill empty (Path.steps home) files
  return { home, root }

end FlakeLint
