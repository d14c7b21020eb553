-- SUMMARY: Places on a disk: what is found there after something was put, and which way paths lead.
import FlakeLint.Disk
import FlakeLint.Proofs.Disk.Paths
import FlakeLint.Proofs.Traversal

/-!
# Places on a disk

Something that is put at a place is found there. As long as directories stay
directories, a path that could be followed before still leads to its place.
-/

namespace FlakeLint

namespace Entry

-- ---------------------------------------------------------------------------
-- Finding
-- ---------------------------------------------------------------------------

@[simp] theorem at?_nil (entry : Entry) : entry.at? [] = some entry := by
  rw [at?]

@[simp] theorem at?_file_cons (file : File) (name : String) (rest : List String) :
    (Entry.file file).at? (name :: rest) = none := by
  rw [at?]

@[simp] theorem at?_directory_cons (entries : List (String × Entry)) (name : String)
    (rest : List String) : (Entry.directory entries).at? (name :: rest) =
      (Table.get? entries name).bind fun entry => entry.at? rest := by
  rw [at?]

/-- Only in a directory is something found below it. -/
theorem exists_of_at?_cons {root found : Entry} {name : String} {rest : List String}
    (h : root.at? (name :: rest) = some found) : ∃ entries inner, root = .directory entries ∧
      Table.get? entries name = some inner ∧ inner.at? rest = some found := by
  cases root with
  | file content => simp at h
  | directory entries =>
    rw [at?_directory_cons] at h
    obtain ⟨inner, hinner, hrest⟩ := Option.bind_eq_some_iff.1 h
    exact ⟨entries, inner, rfl, hinner, hrest⟩

theorem at?_append (entry : Entry) (first second : List String) :
    entry.at? (first ++ second) = (entry.at? first).bind fun found => found.at? second := by
  induction first generalizing entry with
  | nil => simp
  | cons name first ih =>
    cases entry with
    | file file => simp
    | directory entries =>
      cases hfound : Table.get? entries name <;> simp [hfound, ih]

-- ---------------------------------------------------------------------------
-- Putting
-- ---------------------------------------------------------------------------

section

variable {new entry : Entry} {entries : List (String × Entry)} {name : String}
  {place other : List String}

@[simp] theorem put_nil (new entry : Entry) : put new entry [] = new := by
  cases entry <;> rfl

@[simp] theorem put_file_cons (new : Entry) (file : File) (name : String) (rest : List String) :
    put new (.file file) (name :: rest) = .file file := by
  rw [put]

@[simp] theorem put_singleton (new : Entry) (entries : List (String × Entry)) (name : String) :
    put new (.directory entries) [name] = .directory (Table.put entries name new) := rfl

theorem put_cons_of_some (h : Table.get? entries name = some entry) (rest : List String) :
    put new (.directory entries) (name :: rest) =
      .directory (Table.put entries name (put new entry rest)) := by
  cases rest with
  | nil => simp
  | cons step rest => rw [put]; simp only [h]; simp

theorem put_cons_of_none (h : Table.get? entries name = none) {rest : List String}
    (hrest : rest ≠ []) : put new (.directory entries) (name :: rest) = .directory entries := by
  cases rest with
  | nil => exact absurd rfl hrest
  | cons step rest => rw [put]; simp only [h]; simp

/-- A place can take something if it is the start or if it lies in a directory. -/
def CanTake (root : Entry) (place : List String) : Prop :=
  place = [] ∨ ∃ above name entries, place = above ++ [name] ∧
    root.at? above = some (.directory entries)

/-- What is put at a place in a directory is found there. -/
theorem at?_put_self {root : Entry} (h : root.CanTake place) :
    (put new root place).at? place = some new := by
  rcases h with rfl | ⟨above, name, entries, rfl, habove⟩
  · simp
  · induction above generalizing root with
    | nil =>
      obtain rfl : root = .directory entries := by simpa using habove
      simp [Table.get?_put_self]
    | cons step above ih =>
      cases root with
      | file file => simp at habove
      | directory others =>
        cases hstep : Table.get? others step with
        | none => simp [hstep] at habove
        | some inner =>
          have hinner : inner.at? above = some (.directory entries) := by
            simpa [hstep] using habove
          simp [put_cons_of_some hstep, Table.get?_put_self, ih hinner]

end

end Entry

namespace Disk

-- ---------------------------------------------------------------------------
-- Following
-- ---------------------------------------------------------------------------

variable {root changed : Entry} {place found steps : List String}

/-- Steps that can be followed lead the same way where all directories have stayed. -/
theorem follow_eq_of_directories
    (h : ∀ other entries, root.at? other = some (.directory entries) →
      ∃ inner, changed.at? other = some (.directory inner))
    (hfollow : follow root place steps = .ok found) : follow changed place steps = .ok found := by
  induction steps generalizing place with
  | nil => simpa [follow] using hfollow
  | cons step rest ih =>
    unfold follow at hfollow ⊢
    split at hfollow
    · next entries hdirectory =>
      obtain ⟨inner, hinner⟩ := h place entries hdirectory
      rw [hinner]
      dsimp only
      split at hfollow
      · next hup =>
        rw [if_pos hup]
        exact ih hfollow
      · next hdown =>
        rw [if_neg hdown]
        exact ih hfollow
    · cases hfollow
    · cases hfollow

theorem follow_append (root : Entry) (place first second : List String) :
    follow root place (first ++ second) =
      (follow root place first).bind fun found => follow root found second := by
  induction first generalizing place with
  | nil => rfl
  | cons step first ih =>
    rw [List.cons_append, follow, follow]
    split
    · split
      · exact ih _
      · exact ih _
    · rfl
    · rfl

/-- Before the last step, a directory has been reached. -/
theorem exists_of_follow_concat {last : String} (h : follow root place (steps ++ [last]) = .ok found) :
    ∃ above entries, follow root place steps = .ok above ∧
      root.at? above = some (.directory entries) ∧ (last ≠ ".." → found = above ++ [last]) := by
  rw [follow_append] at h
  obtain ⟨above, habove, h⟩ := exists_eq_ok_of_bind h
  unfold follow at h
  split at h
  · next entries hdirectory =>
    refine ⟨above, entries, habove, hdirectory, fun hlast => ?_⟩
    simpa [hlast, follow, eq_comm] using h
  · cases h
  · cases h

/-- Steps that do not end upwards lead to a place that can take something. -/
theorem canTake_of_follow {last : String} (hlast : last ≠ "..")
    (h : follow root place (steps ++ [last]) = .ok found) : root.CanTake found := by
  obtain ⟨above, entries, -, hdirectory, hfound⟩ := exists_of_follow_concat h
  exact .inr ⟨above, last, entries, hfound hlast, hdirectory⟩

/-- Steps that do not lead up lead to the place that they spell, if something is there. -/
theorem follow_eq_of_at? {below : List String} {entry : Entry} (hdown : ".." ∉ below)
    (h : root.at? (place ++ below) = some entry) : follow root place below = .ok (place ++ below) := by
  induction below generalizing place with
  | nil => simp [follow]
  | cons step rest ih =>
    rw [List.mem_cons, not_or] at hdown
    have hplace := h
    rw [Entry.at?_append] at hplace
    obtain ⟨found, hfound, hrest⟩ := Option.bind_eq_some_iff.1 hplace
    obtain ⟨entries, -, rfl, -⟩ := Entry.exists_of_at?_cons hrest
    rw [List.append_cons] at h
    rw [follow, hfound, List.append_cons]
    simpa [Ne.symm hdown.1] using ih hdown.2 h

section

variable {disk : Disk} {path : String} {entry : Entry}

theorem find?_eq_some_iff : disk.find? path = some entry ↔
    ∃ place, disk.place path = .ok place ∧ disk.root.at? place = some entry ∧
      entry.isCircle = false := by
  unfold find? atPath?
  cases disk.place path <;> simp [Option.filter_eq_some_iff]

theorem exists_place_of_find? (h : disk.find? path = some entry) :
    ∃ place, disk.place path = .ok place ∧ disk.root.at? place = some entry := by
  obtain ⟨place, hplace, hat, -⟩ := find?_eq_some_iff.1 h
  exact ⟨place, hplace, hat⟩

/-- A path without steps up leads to what is there in the tree. -/
theorem find?_of_at? {steps : List String} (hdown : ".." ∉ steps)
    (hsteps : disk.start path ++ Path.steps path = steps) (h : disk.root.at? steps = some entry)
    (hcircle : entry.isCircle = false) : disk.find? path = some entry := by
  refine find?_eq_some_iff.2 ⟨steps, ?_, h, hcircle⟩
  rw [Disk.place, hsteps]
  exact follow_eq_of_at? hdown h

/-- The path of a single dot leads to the working directory. -/
theorem find?_dot {entries : List (String × Entry)} (hdown : ".." ∉ Path.steps disk.cwd)
    (h : disk.root.at? (Path.steps disk.cwd) = some (.directory entries)) :
    disk.find? "." = some (.directory entries) := by
  have habsolute : Path.isAbsolute "." = false := rfl
  have hsteps : Path.steps "." = [] := rfl
  refine find?_of_at? hdown ?_ h rfl
  rw [start, habsolute, if_neg Bool.false_ne_true, hsteps, List.append_nil]

/-- A path cannot be shown: it leads in a circle, and the system makes a fault of that. -/
def FaultsOn (disk : Disk) (path : String) : Prop :=
  disk.system.faultsOnCircles ∧ disk.isCircle path

instance (disk : Disk) (path : String) : Decidable (disk.FaultsOn path) :=
  inferInstanceAs (Decidable (_ ∧ _))

theorem shown_cases (disk : Disk) (path : String) :
    disk.FaultsOn path ∧ disk.shown path =
      .error (.linkCircle ("/" ++ Path.join (Path.stepsFromRoot disk.cwd path))) ∨
    ¬ disk.FaultsOn path ∧ disk.shown path = .ok (Path.shown disk.home disk.cwd path) := by
  unfold FaultsOn shown
  rw [← Bool.and_eq_true]
  by_cases hfaults : (disk.system.faultsOnCircles && disk.isCircle path) = true
  · exact .inl ⟨hfaults, if_pos hfaults⟩
  · exact .inr ⟨hfaults, if_neg hfaults⟩

theorem shown_eq_of_not_faultsOn (h : ¬ disk.FaultsOn path) :
    disk.shown path = .ok (Path.shown disk.home disk.cwd path) := by
  rcases disk.shown_cases path with ⟨hfaults, -⟩ | ⟨-, hshown⟩
  · exact absurd hfaults h
  · exact hshown

end

end Disk

end FlakeLint
