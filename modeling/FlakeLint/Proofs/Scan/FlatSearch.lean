-- SUMMARY: A search finds what a rule for single files keeps, although it never enters some directories.
import FlakeLint.Discovery
import FlakeLint.Proofs.Disk.Listing
import FlakeLint.Proofs.Scan.Search
import Mathlib.Data.List.Sort

/-!
# Searches as filters

The rule for a single file looks at its path alone. What excludes a directory
excludes every file below it, so leaving the directory out loses nothing that the
rule keeps, and the search comes to the list of all files with the rule as filter.
-/

namespace FlakeLint.Discovery

open FlakeLint.Path (join isStep)
open Entry (isOrdinary places placesIn)

-- ---------------------------------------------------------------------------
-- The rule for single files
-- ---------------------------------------------------------------------------

/-- Is the file at a place kept, by its path alone? -/
def keeps (patterns : List Utf16) (names : List String) : Bool :=
  isTestFile (join names) && names.dropLast.all (fun name => !skippedDirectories.contains name) &&
    !patterns.any (matchesText (join names))

theorem keeps_iff {patterns : List Utf16} {names : List String} : keeps patterns names ↔
    isTestFile (join names) ∧ (∀ name ∈ names.dropLast, name ∉ skippedDirectories) ∧
      ∀ pattern ∈ patterns, matchesText (join names) pattern = false := by
  simp [keeps, and_assoc]

section

variable {patterns : List Utf16} {directories rest : List String}

/-- What matches a directory matches everything below it. -/
theorem matchesPattern_append (hsteps : ∀ name ∈ directories ++ rest, isStep name)
    (hdirectories : directories ≠ []) {pattern : String}
    (h : matchesPattern (join directories) pattern) :
    matchesPattern (join (directories ++ rest)) pattern := by
  cases rest with
  | nil => simpa using h
  | cons name rest =>
    rw [List.forall_mem_append] at hsteps
    simp only [matchesPattern, Path.parts_join hsteps.1, Bool.or_eq_true, Bool.and_eq_true,
      List.contains_iff_mem] at h
    simp only [matchesPattern, Path.parts_join (List.forall_mem_append.2 hsteps), Bool.or_eq_true,
      Bool.and_eq_true, List.contains_iff_mem]
    rcases h with hpart | ⟨hslash, hstart⟩
    · exact .inl (List.mem_append_left _ hpart)
    · refine .inr ⟨hslash, ?_⟩
      rw [Path.join_append hdirectories (List.cons_ne_nil _ _), String.append_assoc]
      exact Text.startsWith_append_of hstart _

theorem matchesText_append (hsteps : ∀ name ∈ directories ++ rest, isStep name)
    (hdirectories : directories ≠ []) {text : Utf16} (h : matchesText (join directories) text) :
    matchesText (join (directories ++ rest)) text := by
  rw [matchesText, Option.any_eq_true] at h ⊢
  obtain ⟨pattern, hpattern, hmatch⟩ := h
  exact ⟨pattern, hpattern, matchesPattern_append hsteps hdirectories hmatch⟩

/-- Nothing below a directory that is left out is kept. -/
theorem keeps_append_eq_false (hsteps : ∀ name ∈ directories ++ rest, isStep name)
    (hdirectories : directories ≠ []) (hrest : rest ≠ [])
    (h : (∃ name ∈ directories, name ∈ skippedDirectories) ∨
      ∃ pattern ∈ patterns, matchesText (join directories) pattern) :
    keeps patterns (directories ++ rest) = false := by
  rw [← Bool.not_eq_true, keeps_iff]
  rintro ⟨-, hfree, hunmatched⟩
  rcases h with ⟨name, hname, hskipped⟩ | ⟨pattern, hpattern, hmatch⟩
  · rw [List.dropLast_append_of_ne_nil hrest] at hfree
    exact hfree name (List.mem_append_left _ hname) hskipped
  · simpa [matchesText_append hsteps hdirectories hmatch] using hunmatched pattern hpattern

end

-- ---------------------------------------------------------------------------
-- The steps of the search
-- ---------------------------------------------------------------------------

/-- What stands before the names in a directory, seen from the start of the search. -/
def baseOf (directories : List String) : String :=
  if directories = [] then "" else join directories ++ "/"

section

variable (patterns : List Utf16) {directories : List String} {name : String}

theorem baseOf_append (directories : List String) (name : String) :
    baseOf directories ++ name = join (directories ++ [name]) := by
  unfold baseOf
  split
  · next h => simp [h]
  · next h => simp [Path.join_append h (List.cons_ne_nil _ _)]

theorem baseOf_concat (directories : List String) (name : String) :
    baseOf (directories ++ [name]) = baseOf directories ++ name ++ "/" := by
  rw [baseOf_append]
  simp [baseOf]

theorem slashed_baseOf (h : ∀ name ∈ directories, isOrdinary name) :
    Path.slashed (baseOf directories) = baseOf directories := by
  refine Path.slashed_eq_self fun hmem => ?_
  have hjoin : '\\' ∈ (join directories).toList := by
    unfold baseOf at hmem
    split at hmem
    · simp at hmem
    · simpa using hmem
  rcases Path.mem_join hjoin with hslash | ⟨name, hname, hmem⟩
  · exact absurd hslash (by decide)
  · simpa [isOrdinary, hmem] using h name hname

/-- Can the search stand in this directory: are the names on the way ordinary and none left out? -/
def IsOpen (directories : List String) : Prop :=
  ∀ name ∈ directories, isOrdinary name ∧ name ∉ skippedDirectories

variable (hopen : IsOpen directories)
include hopen

theorem takesFile_eq (name : String) : takesFile (patterns.map .pattern) (baseOf directories) name =
    .ok (keeps patterns (directories ++ [name])) := by
  have hskipped : directories.all (fun name => !skippedDirectories.contains name) := by
    simpa using fun name hname => (hopen name hname).2
  unfold takesFile
  simp only [slashed_baseOf fun name hname => (hopen name hname).1, baseOf_append, isExcluded_ok,
    keeps, List.dropLast_concat, hskipped, Bool.and_true]
  cases isTestFile (join (directories ++ [name])) <;> rfl

theorem entersDirectory_eq (name : String) :
    entersDirectory (patterns.map .pattern) (baseOf directories) name =
      .ok (!skippedDirectories.contains name &&
        !patterns.any (matchesText (join (directories ++ [name])))) := by
  unfold entersDirectory
  simp only [slashed_baseOf fun name hname => (hopen name hname).1, baseOf_append, isExcluded_ok]
  cases skippedDirectories.contains name <;> rfl

end

theorem isOrdinary_of_mem_placesIn {entries : List (String × Entry)} {names : List String}
    (h : (Entry.directory entries).isWellNamed) (hnames : names ∈ placesIn entries) :
    names ≠ [] ∧ ∀ name ∈ names, isOrdinary name :=
  ⟨Entry.ne_nil_of_mem_placesIn hnames,
    Entry.kind_of_mem_placesIn ((Entry.isNamedBy_isOrdinary _).trans h) hnames⟩

theorem isStep_of_isOrdinary {name : String} (h : isOrdinary name) : isStep name := by
  simp only [isOrdinary, Bool.and_eq_true] at h
  exact h.1.1

section

variable (patterns : List Utf16)

mutual
theorem atEntry_eq (directories : List String) (name : String) (entry : Entry)
    (hwell : entry.isWellNamed) (hname : isOrdinary name) (hopen : IsOpen directories) :
    atEntry (patterns.map .pattern) (baseOf directories) name entry =
      .ok (((entry.places.map fun names => directories ++ name :: names).filter
        (keeps patterns)).map join) := by
  match entry with
  | .file content =>
    simp only [atEntry, takesFile_eq patterns hopen, bind, Except.bind, pure, Except.pure, places,
      List.map_singleton, List.filter_singleton, baseOf_append]
    cases keeps patterns (directories ++ [name]) <;> rfl
  | .directory entries =>
    simp only [atEntry, entersDirectory_eq patterns hopen, bind, Except.bind, pure, Except.pure]
    split
    · next henters =>
      simp only [Bool.and_eq_true, Bool.not_eq_true', List.contains_eq_mem,
        decide_eq_false_iff_not] at henters
      have hnext : IsOpen (directories ++ [name]) :=
        List.forall_mem_append.2 ⟨hopen, by simpa using ⟨hname, henters.1⟩⟩
      rw [← baseOf_concat, below_eq (directories ++ [name]) entries hwell hnext]
      simp [places]
    · next hleft =>
      have hempty : ∀ names ∈ (placesIn entries).map (fun names => directories ++ name :: names),
          ¬ keeps patterns names := by
        simp only [List.forall_mem_map]
        intro names hnames
        obtain ⟨hne, hordinary⟩ := isOrdinary_of_mem_placesIn hwell hnames
        have hsteps : ∀ step ∈ directories ++ [name] ++ names, isStep step := by
          simp only [List.forall_mem_append, List.mem_singleton, forall_eq]
          exact ⟨⟨fun step hstep => isStep_of_isOrdinary (hopen step hstep).1,
            isStep_of_isOrdinary hname⟩, fun step hstep => isStep_of_isOrdinary (hordinary step hstep)⟩
        have hcause : (∃ step ∈ directories ++ [name], step ∈ skippedDirectories) ∨
            ∃ pattern ∈ patterns, matchesText (join (directories ++ [name])) pattern := by
          by_cases hskipped : name ∈ skippedDirectories
          · exact .inl ⟨name, by simp, hskipped⟩
          · right
            simpa [hskipped] using hleft
        have hfalse := keeps_append_eq_false hsteps (by simp) hne hcause
        simpa using hfalse
      rw [places, List.filter_eq_nil_iff.2 hempty]
      rfl

theorem below_eq (directories : List String) (entries : List (String × Entry))
    (hwell : (Entry.directory entries).isWellNamed) (hopen : IsOpen directories) :
    below (patterns.map .pattern) (baseOf directories) entries =
      .ok ((((placesIn entries).map fun names => directories ++ names).filter
        (keeps patterns)).map join) := by
  match entries with
  | [] => rfl
  | (name, entry) :: rest =>
    obtain ⟨hname, hentry⟩ := Entry.isWellNamed_of_mem hwell List.mem_cons_self
    have hrest : (Entry.directory rest).isWellNamed := by
      simp only [Entry.isWellNamed, Entry.areWellNamed, Table.keys_cons, List.nodup_cons,
        Bool.and_eq_true, decide_eq_true_eq] at hwell ⊢
      exact ⟨hwell.1.2, hwell.2.2⟩
    simp [below, atEntry_eq directories name entry hentry hname hopen,
      below_eq directories rest hrest hopen, placesIn, bind, Except.bind, pure, Except.pure,
      Function.comp_def]
end

end

end FlakeLint.Discovery
