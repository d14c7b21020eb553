-- SUMMARY: Overrides of settings carried out in place, on a copy that is made in memory.
import FlakeLint.Settings.Edit

/-!
# Settings in memory

Tables and lists that are changed in place live in a memory, where one list may be
found from several tables. Overrides are carried out on a copy of the settings whose
lists are new ones, each of them extended in its place.
-/

namespace FlakeLint

/-- What stands under a key of a table in memory: a list, by its place, or a value of another kind, which
no override changes in place. -/
inductive Held where
  | listAt (place : Nat)
  | value (json : Json)

/-- The lists and the tables that can be changed in place. -/
structure Memory where
  lists : List (List Json)
  tables : List (Table Utf16 Held)

/-- What is done in memory stays there also where it is refused later on. -/
abbrev Doing (α : Type) := ExceptT Fault (StateM Memory) α

namespace Doing

/-- How something that is done in a memory ends, and the memory that it leaves. -/
def run {α : Type} (doing : Doing α) (memory : Memory) : Except Fault α × Memory :=
  StateT.run (ExceptT.run doing) memory

/-! ## Reading and writing -/

def listAt (place : Nat) : Doing (List Json) := do
  return (← get).lists.getD place []

def tableAt (place : Nat) : Doing (Table Utf16 Held) := do
  return (← get).tables.getD place []

def newList (items : List Json) : Doing Nat := do
  let memory ← get
  set { memory with lists := memory.lists ++ [items] }
  return memory.lists.length

def newTable (entries : Table Utf16 Held) : Doing Nat := do
  let memory ← get
  set { memory with tables := memory.tables ++ [entries] }
  return memory.tables.length

def setList (place : Nat) (items : List Json) : Doing Unit :=
  modify fun memory => { memory with lists := memory.lists.set place items }

def setTable (place : Nat) (entries : Table Utf16 Held) : Doing Unit :=
  modify fun memory => { memory with tables := memory.tables.set place entries }

/-! ## Copies -/

/-- What is copied does not share its list with what it is a copy of. -/
def copy : Held → Doing Held
  | .listAt place => do return .listAt (← newList (← listAt place))
  | .value json => return .value json

def copyEntry (entry : Utf16 × Held) : Doing (Utf16 × Held) := do
  return (entry.1, ← copy entry.2)

def copyTable (place : Nat) : Doing Nat := do
  newTable (← (← tableAt place).mapM copyEntry)

/-! ## Overrides -/

/-- Appends an item to a list, unless the list as it is by then has it. -/
def appendNew (target : Nat) (item : Json) : Doing Unit := do
  let items ← listAt target
  if items.any (Json.alike item) then return else setList target (items ++ [item])

/-- Appends the items of one list to another one, each as far as it is new by then. -/
def extendList (target source : Nat) : Doing Unit := do
  forM (← listAt source) (appendNew target)

/-- Applies one override to the table at a place. -/
def override (target : Nat) (key : Utf16) (held : Held) : Doing Unit :=
  match held, Setting.ofKey? key with
  | .value .null, _ => return
  | _, none => throw (.edit (.unknownKey key.shown))
  | .listAt source, some _ => do
    let entries ← tableAt target
    match entries.get? key with
    | some (.listAt list) => extendList list source
    | some (.value _) => throw .wrongShape
    | none => do
      let list ← newList []
      setTable target (entries.put key (.listAt list))
      extendList list source
  | .value json, some _ => do
    setTable target ((← tableAt target).put key (.value json))

/-- Applies the overrides in one table to a copy of another. -/
def merge (settings overrides : Nat) : Doing Nat := do
  let merged ← copyTable settings
  forM (← tableAt overrides) fun entry => override merged entry.1 entry.2
  return merged

end Doing

end FlakeLint
