-- SUMMARY: A search finds no file twice, whatever its settings, and which found files are shown alike.
import FlakeLint.Proofs.Disk.ShownPaths
import FlakeLint.Proofs.Scan.FoundFiles

/-!
# Files found once

Whatever is excluded, a search goes through a directory once and takes some of its
files. So the paths that it finds are different ones. In reports they may look alike:
a backslash is an ordinary character of a name, but is shown as a slash.
-/

namespace FlakeLint

namespace Entry

theorem isName_iff {name : String} : isName name ↔ Path.isStep name ∧ name ≠ ".." := by
  simp [isName]

/-- The names on the way to a file are steps that do not lead up. -/
theorem steps_of_mem_placesIn {entries : List (String × Entry)} {names : List String}
    (h : (Entry.directory entries).isNamedBy isName) (hnames : names ∈ placesIn entries) :
    names ≠ [] ∧ (∀ name ∈ names, Path.isStep name) ∧ ".." ∉ names := by
  have hkind := kind_of_mem_placesIn h hnames
  refine ⟨ne_nil_of_mem_placesIn hnames, ?_, ?_⟩
  · intro name hname
    exact (isName_iff.1 (hkind name hname)).1
  · intro hup
    exact (isName_iff.1 (hkind ".." hup)).2 rfl

end Entry

namespace Discovery

open FlakeLint.Path (join isStep)
open Entry (isName places placesIn)

-- ---------------------------------------------------------------------------
-- What a search takes
-- ---------------------------------------------------------------------------

section

variable {exclusions : List Exclusion}

mutual
theorem exists_sublist_of_atEntry (base name : String) (entry : Entry) {files : List String}
    (h : atEntry exclusions base name entry = .ok files) :
    ∃ taken : List (List String), taken.Sublist (entry.places.map (name :: ·)) ∧
      files = taken.map fun names => base ++ join names := by
  cases entry with
  | file _ =>
    rw [atEntry] at h
    obtain ⟨takes, -, h⟩ := exists_eq_ok_of_bind h
    cases takes with
    | true =>
      cases h
      refine ⟨[[name]], ?_, ?_⟩
      · rw [places]
        exact List.Sublist.refl _
      · rw [List.map_singleton, Path.join_singleton]
    | false =>
      cases h
      exact ⟨[], List.nil_sublist _, rfl⟩
  | directory entries =>
    rw [atEntry] at h
    obtain ⟨enters, -, h⟩ := exists_eq_ok_of_bind h
    cases enters with
    | true =>
      obtain ⟨taken, htaken, rfl⟩ := exists_sublist_of_below (base ++ name ++ "/") entries h
      refine ⟨taken.map (name :: ·), ?_, ?_⟩
      · rw [places]
        exact htaken.map _
      rw [List.map_map]
      apply List.map_congr_left
      intro names hnames
      have hjoin : join (name :: names) = name ++ "/" ++ join names := by
        have hne : names ≠ [] := Entry.ne_nil_of_mem_placesIn (htaken.subset hnames)
        have hpath := Path.join_append (List.cons_ne_nil name []) hne
        rwa [Path.join_singleton, List.singleton_append] at hpath
      rw [Function.comp_apply, hjoin, String.append_assoc, String.append_assoc, String.append_assoc]
    | false =>
      cases h
      exact ⟨[], List.nil_sublist _, rfl⟩

theorem exists_sublist_of_below (base : String) (entries : List (String × Entry))
    {files : List String} (h : below exclusions base entries = .ok files) :
    ∃ taken : List (List String), taken.Sublist (placesIn entries) ∧
      files = taken.map fun names => base ++ join names := by
  match entries with
  | [] =>
    rw [below] at h
    cases h
    exact ⟨[], List.nil_sublist _, rfl⟩
  | (name, entry) :: rest =>
    rw [below] at h
    obtain ⟨first, hfirst, h⟩ := exists_eq_ok_of_bind h
    obtain ⟨others, hothers, h⟩ := exists_eq_ok_of_bind h
    cases h
    obtain ⟨taken, htaken, rfl⟩ := exists_sublist_of_atEntry base name entry hfirst
    obtain ⟨more, hmore, rfl⟩ := exists_sublist_of_below base rest hothers
    refine ⟨taken ++ more, ?_, ?_⟩
    · rw [placesIn]
      exact htaken.append hmore
    · rw [List.map_append]
end

end

-- ---------------------------------------------------------------------------
-- Found files
-- ---------------------------------------------------------------------------

variable {disk : Disk} {path : String} {setting : Json} {files : List String}

/-- A search that comes to an end has found one file at most, or some of those in a directory. -/
theorem found_cases (h : testFiles disk path setting = .ok files) :
    (∃ file, files.Sublist [file]) ∨
    ∃ entries, disk.find? path = some (.directory entries) ∧
      ∃ taken : List (List String), taken.Sublist (placesIn entries) ∧
        files.Perm (taken.map fun names => startOf path ++ join names) := by
  unfold testFiles at h
  split at h
  · cases h
    exact .inl ⟨_, List.Sublist.refl _⟩
  · obtain ⟨exclusions, -, h⟩ := exists_eq_ok_of_bind h
    split at h
    · next entries hfound =>
      obtain ⟨found, hbelow, h⟩ := exists_eq_ok_of_bind h
      cases h
      obtain ⟨taken, htaken, rfl⟩ := exists_sublist_of_below "" entries hbelow
      refine .inr ⟨entries, hfound, taken, htaken, (List.mergeSort_perm _ _).trans ?_⟩
      rw [List.map_map]
      simp only [Function.comp_def, String.empty_append]
      exact List.Perm.refl _
    · cases h
      exact .inl ⟨path, List.nil_sublist _⟩

variable (hnamed : disk.root.isNamedBy isName)
include hnamed

/-- The places of what a search takes below a directory have names that are steps. -/
theorem steps_of_taken {entries : List (String × Entry)} {taken : List (List String)}
    (hfound : disk.find? path = some (.directory entries)) (htaken : taken.Sublist (placesIn entries)) :
    taken.Nodup ∧
      ∀ names ∈ taken, names ≠ [] ∧ (∀ name ∈ names, isStep name) ∧ ".." ∉ names := by
  obtain ⟨place, -, hat⟩ := Disk.exists_place_of_find? hfound
  obtain ⟨hentries, -⟩ := Entry.isNamedBy_of_at? hnamed hat
  refine ⟨(Entry.nodup_places (.directory entries) hentries).sublist htaken, ?_⟩
  intro names hmem
  exact Entry.steps_of_mem_placesIn hentries (htaken.subset hmem)

/-- The paths that a search finds are different. -/
theorem nodup_of_testFiles (h : testFiles disk path setting = .ok files) : files.Nodup := by
  cases found_cases h with
  | inl hfew =>
    obtain ⟨only, hfew⟩ := hfew
    exact (List.nodup_singleton only).sublist hfew
  | inr hmany =>
    obtain ⟨entries, hfound, taken, htaken, hperm⟩ := hmany
    obtain ⟨hnodup, hnames⟩ := steps_of_taken hnamed hfound htaken
    rw [hperm.nodup_iff]
    apply hnodup.map_on
    intro names hmem others hmem' heq
    exact names_eq_of_pathOf_eq path (hnames names hmem).2.1 (hnames others hmem').2.1 heq

/-- Unless the project is somewhere below the start of the search, two files that it finds are shown
alike exactly if their paths differ in slashes and backslashes only. -/
theorem shown_alike_iff (habove : ¬ disk.LeadsAboveHome path)
    (h : testFiles disk path setting = .ok files) : ∀ file ∈ files, ∀ other ∈ files,
      Path.shown disk.home disk.cwd file = Path.shown disk.home disk.cwd other ↔
        Path.slashed file = Path.slashed other := by
  cases found_cases h with
  | inl hfew =>
    obtain ⟨only, hfew⟩ := hfew
    intro file hfile other hother
    rw [List.mem_singleton.1 (hfew.subset hfile), List.mem_singleton.1 (hfew.subset hother)]
    exact iff_of_true rfl rfl
  | inr hmany =>
    obtain ⟨entries, hfound, taken, htaken, hperm⟩ := hmany
    obtain ⟨-, hnames⟩ := steps_of_taken hnamed hfound htaken
    obtain ⟨place, hplace, hat⟩ := Disk.exists_place_of_find? hfound
    have hsteps : ∀ name ∈ place, isStep name := by
      intro name hname
      exact (Entry.isName_iff.1 ((Entry.isNamedBy_of_at? hnamed hat).2 name hname)).1
    obtain ⟨start, hshown⟩ := exists_shown_eq habove hplace hsteps
    intro file hfile other hother
    obtain ⟨names, hmem, rfl⟩ := List.mem_map.1 (hperm.subset hfile)
    obtain ⟨others, hmem', rfl⟩ := List.mem_map.1 (hperm.subset hother)
    obtain ⟨hne, hstep, hdown⟩ := hnames names hmem
    obtain ⟨hne', hstep', hdown'⟩ := hnames others hmem'
    rw [hshown names hne hstep hdown, hshown others hne' hstep' hdown', Path.slashed_append_inj,
      Path.slashed_append_inj]

end Discovery

end FlakeLint
