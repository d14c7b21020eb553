-- SUMMARY: Tables that keep the order in which their keys came.

/-!
# Ordered tables

A table is a list of keys with values. Writing to a key that is there replaces
its value in place; a new key goes to the end.
-/

namespace FlakeLint

abbrev Table (κ α : Type) := List (κ × α)

namespace Table

variable {κ α : Type} [DecidableEq κ]

def keys (table : Table κ α) : List κ :=
  table.map Prod.fst

def get? (table : Table κ α) (key : κ) : Option α :=
  (table.find? fun entry => entry.1 = key).map Prod.snd

def put (table : Table κ α) (key : κ) (value : α) : Table κ α :=
  match table with
  | [] => [(key, value)]
  | entry :: rest =>
    if entry.1 = key then (key, value) :: rest else entry :: put rest key value

/-- The table without the entries for a key. -/
def erase (table : Table κ α) (key : κ) : Table κ α :=
  table.filter fun entry => entry.1 ≠ key

/-- All entries of `newer`, written one after the other. -/
def update (table newer : Table κ α) : Table κ α :=
  newer.foldl (fun table entry => table.put entry.1 entry.2) table

/-- Reads entries in order; a repeated key keeps its first place and takes its last value. -/
def ofList (entries : List (κ × α)) : Table κ α :=
  update [] entries

@[simp] theorem get?_nil (key : κ) : get? ([] : Table κ α) key = none := rfl

theorem get?_cons (entry : κ × α) (rest : Table κ α) (key : κ) :
    get? (entry :: rest) key = if entry.1 = key then some entry.2 else get? rest key := by
  unfold get?
  by_cases h : entry.1 = key <;> simp [h]

theorem get?_put_self (table : Table κ α) (key : κ) (value : α) :
    (table.put key value).get? key = some value := by
  induction table with
  | nil => simp [put, get?_cons]
  | cons entry rest ih =>
    by_cases h : entry.1 = key <;> simp [put, h, get?_cons, ih]

theorem get?_put_of_ne (table : Table κ α) {key other : κ} (value : α) (h : other ≠ key) :
    (table.put key value).get? other = table.get? other := by
  induction table with
  | nil => simp [put, get?_cons, h.symm]
  | cons entry rest ih =>
    by_cases hk : entry.1 = key
    · simp [put, hk, get?_cons, h.symm]
    · simp [put, hk, get?_cons, ih]

theorem keys_put (table : Table κ α) (key : κ) (value : α) :
    (table.put key value).keys = if key ∈ table.keys then table.keys else table.keys ++ [key] := by
  induction table with
  | nil => simp [put, keys]
  | cons entry rest ih =>
    by_cases h : entry.1 = key
    · simp [put, h, keys]
    · have h' : ¬ key = entry.1 := fun e => h e.symm
      simp only [put, h, if_false, keys, List.map_cons, List.mem_cons, h', false_or]
      simp only [keys] at ih
      rw [ih]
      split <;> simp [*]

end Table

end FlakeLint
