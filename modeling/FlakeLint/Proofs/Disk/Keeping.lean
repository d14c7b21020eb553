-- SUMMARY: What stays as it was when directories are made and files are put somewhere.
import FlakeLint.Proofs.Disk.Places
import FlakeLint.Proofs.Table

/-!
# What is kept

A place holds nothing, a directory, or a file. Putting a file or an empty directory
where no directory is changes what that place holds and nothing else. Making
directories loses nothing, also where it is refused halfway.
-/

namespace FlakeLint

namespace Entry

-- ---------------------------------------------------------------------------
-- What places hold
-- ---------------------------------------------------------------------------

/-- What a place holds: nothing, a directory, or a file. -/
def held (root : Entry) (place : List String) : Option (Option File) :=
  (root.at? place).map Entry.file?

section

variable {root new : Entry} {place other : List String} {entries : List (String × Entry)}

@[simp] theorem held_nil (root : Entry) : root.held [] = some root.file? := by
  simp [held]

@[simp] theorem held_file_cons (file : File) (name : String) (rest : List String) :
    (Entry.file file).held (name :: rest) = none := by
  simp [held]

@[simp] theorem held_directory_cons (entries : List (String × Entry)) (name : String)
    (rest : List String) : (Entry.directory entries).held (name :: rest) =
      (Table.get? entries name).bind fun entry => entry.held rest := by
  cases hfound : Table.get? entries name <;> simp [held, hfound]

theorem held_eq_none : root.held place = none ↔ root.at? place = none := by
  simp [held]

theorem held_eq_file {file : File} :
    root.held place = some (some file) ↔ root.at? place = some (.file file) := by
  unfold held
  rcases root.at? place with _ | _ | _ <;> simp [Entry.file?]

theorem held_eq_directory :
    root.held place = some none ↔ ∃ entries, root.at? place = some (.directory entries) := by
  unfold held
  rcases root.at? place with _ | _ | _ <;> simp [Entry.file?]

theorem held_ne_directory :
    root.held place ≠ some none ↔ ∀ inner, root.at? place ≠ some (.directory inner) := by
  rw [Ne, held_eq_directory, not_exists]

/-- Nothing happens where there is no directory for a place to lie in. -/
theorem put_eq_self_of_not_canTake (h : ¬ root.CanTake place) : put new root place = root := by
  induction place generalizing root with
  | nil => exact absurd (.inl rfl) h
  | cons step place ih =>
    cases root with
    | file file => rw [put_file_cons]
    | directory entries =>
      have hplace : place ≠ [] := by
        rintro rfl
        exact h (.inr ⟨[], step, entries, rfl, at?_nil _⟩)
      cases hfound : Table.get? entries step with
      | none => exact put_cons_of_none hfound hplace
      | some inner =>
        have hinner : ¬ inner.CanTake place := by
          rintro (hnil | ⟨above, name, others, rfl, habove⟩)
          · exact hplace hnil
          · exact h (.inr ⟨step :: above, name, others, rfl, by simp [hfound, habove]⟩)
        rw [put_cons_of_some hfound, ih hinner, Table.put_eq_self hfound]

/-- Putting something with nothing below it changes only what its place holds, if that was no
directory. -/
theorem held_put_of_ne (hleaf : ∀ name rest, new.held (name :: rest) = none)
    (hno : root.held place ≠ some none) (hother : other ≠ place) :
    (put new root place).held other = root.held other := by
  induction place generalizing root other with
  | nil =>
    cases other with
    | nil => exact absurd rfl hother
    | cons name rest =>
      cases root with
      | file file => simp [hleaf]
      | directory entries => exact absurd rfl hno
  | cons step place ih =>
    cases root with
    | file file => rw [put_file_cons]
    | directory entries =>
      cases hfound : Table.get? entries step with
      | some inner =>
        rw [put_cons_of_some hfound]
        cases other with
        | nil => simp [Entry.file?]
        | cons first other =>
          by_cases hfirst : first = step
          · subst hfirst
            have hinner := @ih inner other (by simpa [hfound] using hno)
              fun heq => hother (by rw [heq])
            simp [Table.get?_put_self, hfound, hinner]
          · simp [Table.get?_put_of_ne _ _ hfirst]
      | none =>
        cases place with
        | cons next place => rw [put_cons_of_none hfound (List.cons_ne_nil next place)]
        | nil =>
          rw [put_singleton]
          rcases other with _ | ⟨first, _ | ⟨second, other⟩⟩
          · simp [Entry.file?]
          · have hfirst : first ≠ step := fun heq => hother (by rw [heq])
            simp [Table.get?_put_of_ne _ _ hfirst]
          · by_cases hfirst : first = step
            · subst hfirst
              simp [Table.get?_put_self, hfound, hleaf]
            · simp [Table.get?_put_of_ne _ _ hfirst]

end

end Entry

namespace Disk

-- ---------------------------------------------------------------------------
-- Keeping
-- ---------------------------------------------------------------------------

/-- Directories are kept. Apart from some places everything is held as it was, except that directories
may have been made where nothing was: on the way of some steps, and only there. -/
structure KeptBut (steps : List String) (places : List (List String)) (root after : Entry) : Prop where
  directories : ∀ place, root.held place = some none → after.held place = some none
  others : ∀ place ∉ places, after.held place = root.held place ∨
    root.held place = none ∧ after.held place = some none ∧
      ∃ front, front <+: steps ∧ follow after [] front = .ok place

section

variable {root middle after : Entry} {steps longer place : List String}
  {first second places : List (List String)}

theorem KeptBut.refl (steps : List String) (root : Entry) : KeptBut steps [] root root :=
  ⟨fun _ => id, fun _ _ => .inl rfl⟩

theorem KeptBut.exists_directory (h : KeptBut steps places root after)
    {entries : List (String × Entry)} (hplace : root.at? place = some (.directory entries)) :
    ∃ inner, after.at? place = some (.directory inner) :=
  Entry.held_eq_directory.1 (h.directories place (Entry.held_eq_directory.2 ⟨entries, hplace⟩))

theorem KeptBut.follow_eq (h : KeptBut longer places root after) {found : List String}
    (hfollow : follow root place steps = .ok found) : follow after place steps = .ok found :=
  follow_eq_of_directories (fun _ _ => h.exists_directory) hfollow

theorem KeptBut.mono (h : KeptBut steps places root after) (hlonger : steps <+: longer) :
    KeptBut longer places root after where
  directories := h.directories
  others := by
    intro place hplace
    rcases h.others place hplace with hsame | ⟨hnone, hmade, front, hfront, hfollow⟩
    · exact .inl hsame
    · exact .inr ⟨hnone, hmade, front, hfront.trans hlonger, hfollow⟩

theorem KeptBut.trans (h : KeptBut steps first root middle) (h' : KeptBut steps second middle after) :
    KeptBut steps (first ++ second) root after where
  directories := fun place hplace => h'.directories place (h.directories place hplace)
  others := by
    intro place hplace
    rw [List.mem_append, not_or] at hplace
    rcases h.others place hplace.1 with hsame | ⟨hnone, hmade, front, hfront, hfollow⟩
    · rw [← hsame]
      exact h'.others place hplace.2
    · exact .inr ⟨hnone, h'.directories place hmade, front, hfront, h'.follow_eq hfollow⟩

/-- The same files are there, apart from those at some places. -/
theorem KeptBut.file_iff (h : KeptBut steps places root after) (hplace : place ∉ places) (file : File) :
    after.at? place = some (.file file) ↔ root.at? place = some (.file file) := by
  rw [← Entry.held_eq_file, ← Entry.held_eq_file]
  rcases h.others place hplace with hsame | ⟨hnone, hmade, -⟩
  · rw [hsame]
  · simp [hnone, hmade]

theorem putFile_keptBut (steps : List String) (file : File)
    (hno : ∀ inner, root.at? place ≠ some (.directory inner)) :
    KeptBut steps [place] root ((Entry.file file).put root place) := by
  rw [← Entry.held_ne_directory] at hno
  have hsame : ∀ other, other ≠ place →
      ((Entry.file file).put root place).held other = root.held other :=
    fun other => Entry.held_put_of_ne (Entry.held_file_cons file) hno
  refine ⟨fun other hother => ?_, fun other hother => .inl (hsame other (by simpa using hother))⟩
  rw [hsame other fun heq => hno (heq ▸ hother), hother]

end

-- ---------------------------------------------------------------------------
-- Making directories
-- ---------------------------------------------------------------------------

variable {system : System} {root after : Entry} {steps : List String}

theorem makeDirectory_keptBut (h : makeDirectory system root steps = .ok after) :
    KeptBut steps [] root after := by
  unfold makeDirectory at h
  obtain ⟨place, hfollow, h⟩ := exists_eq_ok_of_bind h
  split at h
  · cases h
  · next hfree =>
    obtain ⟨_, -, h⟩ := exists_eq_ok_of_bind h
    cases h
    have hnone : root.held place = none := Entry.held_eq_none.2 (by simpa using hfree)
    have hsame : ∀ other, other ≠ place →
        ((Entry.directory []).put root place).held other = root.held other := fun other =>
      Entry.held_put_of_ne (fun name rest => by simp) (by simp [hnone])
    have hdirectories : ∀ other, root.held other = some none →
        ((Entry.directory []).put root place).held other = some none := by
      intro other hother
      rwa [hsame other fun heq => by simp [heq, hnone] at hother]
    refine ⟨hdirectories, fun other _ => ?_⟩
    by_cases hother : other = place
    · subst hother
      by_cases hcan : root.CanTake other
      · refine .inr ⟨hnone, Entry.held_eq_directory.2 ⟨[], Entry.at?_put_self hcan⟩, steps,
          List.prefix_rfl, ?_⟩
        refine follow_eq_of_directories (fun place entries hplace => ?_) hfollow
        rw [← Entry.held_eq_directory]
        exact hdirectories place (Entry.held_eq_directory.2 ⟨entries, hplace⟩)
      · exact .inl (by rw [Entry.put_eq_self_of_not_canTake hcan])
    · exact .inl (hsame other hother)

/-- Making directories only makes directories, also where it is refused halfway. -/
theorem makeDirectories_keptBut (system : System) (root : Entry) (start steps : List String) :
    KeptBut (start ++ steps) [] root (makeDirectories system root start steps).1 := by
  have hshorter (steps : List String) : start ++ steps.dropLast <+: start ++ steps :=
    (List.prefix_append_right_inj start).2 (List.dropLast_prefix steps)
  fun_induction makeDirectories system root start steps with
  | case1 steps made hmade => exact makeDirectory_keptBut hmade
  | case2 steps => exact .refl _ root
  -- The directories above come first.
  | case3 steps cause _ _ _ above refusal habove ih =>
    rw [habove] at ih
    exact ih.mono (hshorter steps)
  | case4 steps cause _ _ _ above habove made hmade ih =>
    rw [habove] at ih
    exact (ih.mono (hshorter steps)).trans (makeDirectory_keptBut hmade)
  | case5 steps cause _ _ _ above habove _ _ _ ih | case6 steps cause _ _ _ above habove _ _ _ ih =>
    rw [habove] at ih
    exact ih.mono (hshorter steps)
  | case7 steps => exact .refl _ root

theorem prepare_keptBut (disk : Disk) (path : String) :
    KeptBut (disk.way path) [] disk.root (disk.prepare path).1.root := by
  unfold prepare way
  have hkept := makeDirectories_keptBut disk.system disk.root (disk.start path) (stepsAbove path)
  generalize makeDirectories disk.system disk.root (disk.start path) (stepsAbove path) = made
    at hkept ⊢
  obtain ⟨root, _ | refusal⟩ := made <;> exact hkept

/-- Making directories changes the tree and nothing else. -/
theorem prepare_eq (disk : Disk) (path : String) :
    (disk.prepare path).1 = { disk with root := (disk.prepare path).1.root } := by
  unfold prepare
  split <;> rfl

end Disk

end FlakeLint
