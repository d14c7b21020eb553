-- SUMMARY: A file that gets other contents: what is found elsewhere, and which way paths lead.
import FlakeLint.Proofs.Disk.Places
import FlakeLint.Settings.File

/-!
# Other contents

Where a file is, another one can be put. Nothing else on the disk changes but the
directories above the file, and those go on being directories. If a link to itself
takes the place of no other file and no other file that of a link, every path leads
to the same place as before, and every other path reads the same.
-/

namespace FlakeLint

-- ---------------------------------------------------------------------------
-- Entries
-- ---------------------------------------------------------------------------

namespace Entry

variable {root : Entry} {place other : List String} {old : File}

/-- A file below a directory is replaced without replacing the directory. -/
theorem exists_put_file_eq_directory {entries : List (String × Entry)}
    (h : (Entry.directory entries).at? place = some (.file old)) (new : File) :
    ∃ others, put (.file new) (.directory entries) place = .directory others := by
  cases place with
  | nil => simp at h
  | cons step place =>
    obtain ⟨_, inner, heq, hinner, -⟩ := exists_of_at?_cons h
    cases heq
    exact ⟨_, put_cons_of_some hinner place⟩

/-- Why an entry leads nowhere if more steps follow; nothing for a directory. -/
def barrier? : Entry → Option DiskCause
  | .file content => some content.asDirectory
  | .directory _ => none

theorem barrier?_put_file (h : root.at? place = some (.file old)) {new : File}
    (hcircle : new.isCircle = old.isCircle) :
    (put (.file new) root place).barrier? = root.barrier? := by
  cases root with
  | file content =>
    cases place with
    | nil =>
      obtain rfl : content = old := by simpa using h
      simp [barrier?, File.asDirectory, hcircle]
    | cons name rest => simp
  | directory entries =>
    obtain ⟨others, hothers⟩ := exists_put_file_eq_directory h new
    simp [hothers, barrier?]

section

variable (h : root.at? place = some (.file old)) (new : File)
include h

/-- After a file was replaced, what is found is what was there; above the old file, with the new one
in its place. -/
theorem at?_put_file_cases (other : List String) :
    (∃ inner rest, place = other ++ rest ∧ root.at? other = some inner ∧
      inner.at? rest = some (.file old) ∧
      (put (.file new) root place).at? other = some (put (.file new) inner rest)) ∨
    (put (.file new) root place).at? other = root.at? other := by
  induction place generalizing root other with
  | nil =>
    obtain rfl : root = .file old := by simpa using h
    cases other with
    | nil => exact .inl ⟨.file old, [], by simp⟩
    | cons first other => exact .inr (by simp)
  | cons step place ih =>
    have hroot := h
    obtain ⟨entries, inner, rfl, hinner, hplace⟩ := exists_of_at?_cons h
    cases other with
    | nil => exact .inl ⟨.directory entries, step :: place, rfl, by simp, hroot, by simp⟩
    | cons first other =>
      by_cases hfirst : first = step
      · subst hfirst
        have hfound : ∀ other, (put (.file new) (.directory entries) (first :: place)).at?
            (first :: other) = (put (.file new) inner place).at? other := by
          simp [put_cons_of_some hinner, Table.get?_put_self]
        rw [hfound, at?_directory_cons, hinner, Option.bind_some]
        rcases ih hplace other with ⟨deepest, rest, rfl, hsame⟩ | hsame
        · exact .inl ⟨deepest, rest, rfl, hsame⟩
        · exact .inr hsame
      · refine .inr ?_
        simp [put_cons_of_some hinner, Table.get?_put_of_ne _ _ hfirst]

theorem map_barrier?_at?_put_file (hcircle : new.isCircle = old.isCircle) (other : List String) :
    ((put (.file new) root place).at? other).map barrier? = (root.at? other).map barrier? := by
  rcases at?_put_file_cases h new other with ⟨inner, rest, -, hinner, hrest, hsame⟩ | hsame
  · simp [hsame, hinner, barrier?_put_file hrest hcircle]
  · rw [hsame]

/-- At another place nothing changes, unless it is a directory, which it then goes on being. -/
theorem at?_put_file_of_ne (hother : other ≠ place) :
    (put (.file new) root place).at? other = root.at? other ∨
    ∃ entries others, root.at? other = some (.directory entries) ∧
      (put (.file new) root place).at? other = some (.directory others) := by
  rcases at?_put_file_cases h new other with ⟨inner, rest, rfl, hinner, hrest, hsame⟩ | hsame
  · cases inner with
    | file content =>
      cases rest with
      | nil => simp at hother
      | cons step rest => simp at hrest
    | directory entries =>
      obtain ⟨others, hothers⟩ := exists_put_file_eq_directory hrest new
      exact .inr ⟨entries, others, hinner, hothers ▸ hsame⟩
  · exact .inl hsame

end

end Entry

-- ---------------------------------------------------------------------------
-- Paths
-- ---------------------------------------------------------------------------

namespace Disk

/-- Which way steps lead depends on nothing but on where the directories are, and the links. -/
theorem follow_congr {root changed : Entry}
    (h : ∀ other, (changed.at? other).map Entry.barrier? = (root.at? other).map Entry.barrier?)
    (place steps : List String) : follow changed place steps = follow root place steps := by
  induction steps generalizing place with
  | nil => simp [follow]
  | cons step rest ih =>
    have hplace := h place
    unfold follow
    cases hroot : root.at? place with
    | none =>
      rw [hroot] at hplace
      simp [Option.map_eq_none_iff.1 hplace]
    | some entry =>
      rw [hroot] at hplace
      obtain ⟨entry', hchanged, hsame⟩ := Option.map_eq_some_iff.1 hplace
      rw [hchanged]
      cases entry <;> cases entry' <;> simp_all [Entry.barrier?]

/-- The disk with another file at a place. -/
def withFile (disk : Disk) (place : List String) (file : File) : Disk :=
  { disk with root := (Entry.file file).put disk.root place }

variable {disk : Disk} {place : List String} {old new : File}
  (h : disk.root.at? place = some (.file old)) (hcircle : new.isCircle = old.isCircle)
include h hcircle

theorem place_withFile (path : String) : (disk.withFile place new).place path = disk.place path :=
  follow_congr (Entry.map_barrier?_at?_put_file h new hcircle) _ _

/-- A link is a link as before, and nothing else is one. -/
theorem isCircle_withFile (path : String) :
    (disk.withFile place new).isCircle path = disk.isCircle path := by
  have hany (root : Option Entry) : root.any Entry.isCircle =
      (root.map Entry.barrier?).any (· = some .circle) := by
    rcases root with _ | content | _
    · rfl
    · by_cases hcontent : content.isCircle <;>
        simp [Entry.isCircle, Entry.barrier?, File.asDirectory, hcontent]
    · rfl
  unfold isCircle
  rw [place_withFile h hcircle]
  cases disk.place path with
  | error cause => rfl
  | ok other =>
    dsimp only [withFile]
    rw [hany, hany, Entry.map_barrier?_at?_put_file h new hcircle]

/-- Every path that leads elsewhere reads the same. -/
theorem read_withFile {path : String} (hpath : disk.place path ≠ .ok place) :
    (disk.withFile place new).read path = disk.read path := by
  have hfile : (disk.withFile place new).file path = disk.file path := by
    unfold Disk.file
    rw [place_withFile h hcircle]
    cases hplace : disk.place path with
    | error cause => rfl
    | ok other =>
      have hother : other ≠ place := by
        rintro rfl
        exact hpath hplace
      dsimp only [withFile]
      rcases Entry.at?_put_file_of_ne h new hother with hsame | ⟨entries, others, hbefore, hafter⟩
      · rw [hsame]
      · rw [hbefore, hafter]
  unfold Disk.read
  rw [hfile]

end Disk

end FlakeLint
