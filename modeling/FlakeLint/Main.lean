-- SUMMARY: The command line program.
import FlakeLint.CommandLine.Run
import FlakeLint.Json.Reader
import FlakeLint.Snapshot

/-!
# The program

Runs one command line on a project that is read from standard input as a JSON
document: the home directory, the files with the outlines that parsers made of
them, and the grammars there are parsers for. Changed files are written below
the home directory.
-/

namespace FlakeLint.Program

/-- The whole text of a stream. -/
partial def readAll (stream : IO.FS.Stream) (text : String) : IO String := do
  let line ← stream.getLine
  if line.isEmpty then return text else readAll stream (text ++ line)

/-- How deep the settings file may nest. -/
def settingsNesting : Nat := 900

/-- The surroundings that a document describes. -/
def surroundingsOf? (document : Json) (terminal : Terminal) (showsLog : Bool) :
    Option Surroundings :=
  match document with
  | .table entries => do
    let .text home := (Table.get? entries "home").getD (.text "/") | none
    let .table files := (Table.get? entries "files").getD (.table []) | none
    let .list grammars := (Table.get? entries "grammars").getD (.list []) | none
    return {
      disk := ← Disk.ofSnapshot? home.shown files
      terminal
      output := .encoding
      nesting := settingsNesting
      showsLog
      canParse := !grammars.isEmpty
      grammars := grammars.filterMap fun grammar =>
        match grammar with
        | .text name => name.string?
        | _ => none
      imaging := none }
  | _ => none

/-- How deep the document may nest: trees nest far deeper than settings. -/
def documentNesting : Nat := 100000

/-- Writes the changed files below the home directory. -/
def writeChanges (before after : Disk) : IO Unit := do
  for (path, file) in before.changes after do
    let directory := after.home ++ "/" ++ Path.join (Path.steps path).dropLast
    IO.FS.createDirAll directory
    IO.FS.writeBinFile (after.home ++ "/" ++ path) ⟨file.bytes.toArray⟩

end FlakeLint.Program

open FlakeLint in
def main (arguments : List String) : IO UInt32 := do
  let output ← IO.getStdout
  let errors ← IO.getStderr
  let terminal : Terminal := ⟨← output.isTty, (← IO.getEnv "NO_COLOR").isSome⟩
  let showsLog := ((← IO.getEnv "TESTCOPILOT_DEBUG").getD "") != ""
  let input ← Program.readAll (← IO.getStdin) ""
  let document := (Json.parseWithin Program.documentNesting input.toList).toOption.getD .null
  match Program.surroundingsOf? document terminal showsLog with
  | none =>
    errors.putStrLn "The project on standard input cannot be read."
    return 1
  | some surroundings =>
    let run := surroundings.run arguments
    Program.writeChanges surroundings.disk run.disk
    match run.outcome with
    | .usage exit =>
      errors.putStrLn "usage: testcopilot [--config FILE] (scan | checkers | config) ..."
      return UInt32.ofNat exit
    | .finished exit text messages =>
      output.putStr text.shown
      errors.putStr messages
      return UInt32.ofNat exit
    | .stopped fault =>
      errors.putStrLn fault.message
      return 1
