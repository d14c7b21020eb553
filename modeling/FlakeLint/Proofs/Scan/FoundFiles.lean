-- SUMMARY: The files that a search finds are, in strict order, those that a rule for single files keeps.
import FlakeLint.Proofs.Scan.FlatSearch
import Mathlib.Data.String.Basic

/-!
# Found files

A search in a directory comes to a sorted list without repetitions. It holds the
files that the rule for single files keeps, so the order of the exclusions does not
matter, and further exclusions only take files away.
-/

namespace FlakeLint.Discovery

open FlakeLint.Path (join isStep)
open Entry (isOrdinary placesIn)

-- ---------------------------------------------------------------------------
-- Sorted texts
-- ---------------------------------------------------------------------------

theorem pairwise_lt_mergeSort {texts : List String} (h : texts.Nodup) :
    texts.mergeSort.Pairwise (· < ·) :=
  ((List.sortedLE_mergeSort (l := texts)).sortedLT_of_nodup
    ((List.mergeSort_perm texts _).nodup_iff.2 h)).pairwise

/-- Of two lists in strict order, one with fewer items is a part of the other. -/
theorem sublist_of_pairwise_lt {fewer texts : List String} (hfewer : fewer.Pairwise (· < ·))
    (htexts : texts.Pairwise (· < ·)) (h : fewer ⊆ texts) : fewer.Sublist texts :=
  List.sublist_of_subperm_of_pairwise (List.subperm_of_subset hfewer.nodup h) hfewer htexts

-- ---------------------------------------------------------------------------
-- Searching a directory
-- ---------------------------------------------------------------------------

theorem ofSetting_texts (patterns : List Utf16) :
    Exclusion.ofSetting (.list (patterns.map .text)) = .ok (patterns.map .pattern) := by
  cases patterns with
  | nil => rfl
  | cons pattern patterns =>
    simp [Exclusion.ofSetting, Json.isTrue, Exclusion.ofItem]

/-- Different places have different paths. -/
theorem names_eq_of_pathOf_eq {names others : List String} (path : String)
    (hnames : ∀ name ∈ names, isStep name) (hothers : ∀ name ∈ others, isStep name)
    (h : startOf path ++ join names = startOf path ++ join others) : names = others := by
  have hjoin : join names = join others := by
    have htext := congrArg String.toList h
    rw [String.toList_append, String.toList_append] at htext
    exact String.toList_injective (List.append_cancel_left htext)
  rw [← Path.steps_join hnames, hjoin, Path.steps_join hothers]

theorem pathOf_injective {names others : List String} (path : String)
    (hnames : ∀ name ∈ names, isOrdinary name) (hothers : ∀ name ∈ others, isOrdinary name)
    (h : startOf path ++ join names = startOf path ++ join others) : names = others :=
  names_eq_of_pathOf_eq path (fun name hname => isStep_of_isOrdinary (hnames name hname))
    (fun name hname => isStep_of_isOrdinary (hothers name hname)) h

section

variable {disk : Disk} {path : String} {entries : List (String × Entry)}
  (hfound : disk.find? path = some (.directory entries))
  (hwell : (Entry.directory entries).isWellNamed)
include hfound hwell

theorem testFiles_eq (patterns : List Utf16) :
    testFiles disk path (.list (patterns.map .text)) =
      .ok (((placesIn entries).filter (keeps patterns)).map fun names =>
        startOf path ++ join names).mergeSort := by
  have hbelow := below_eq patterns [] entries hwell (by simp [IsOpen])
  simp only [List.nil_append, List.map_id', baseOf, if_true] at hbelow
  simp [testFiles, hfound, ofSetting_texts, hbelow, bind, Except.bind, pure, Except.pure,
    Function.comp_def]

/-- What a search finds, whatever the exclusions. -/
theorem exists_testFiles_eq (patterns : List Utf16) :
    ∃ files, testFiles disk path (.list (patterns.map .text)) = .ok files ∧
      files.Pairwise (· < ·) ∧
      ∀ found, found ∈ files ↔ ∃ names file,
        (Entry.directory entries).at? names = some (.file file) ∧
        found = startOf path ++ join names ∧ keeps patterns names := by
  have hnamed : (Entry.directory entries).isNamedBy isOrdinary :=
    (Entry.isNamedBy_isOrdinary _).trans hwell
  have hmem (names : List String) : names ∈ placesIn entries ↔
      ∃ file, (Entry.directory entries).at? names = some (.file file) :=
    Entry.mem_places_iff (.directory entries) hnamed names
  refine ⟨_, testFiles_eq hfound hwell patterns, pairwise_lt_mergeSort ?_, fun found => ?_⟩
  · refine ((Entry.nodup_places (.directory entries) hnamed).filter _).map_on ?_
    intro names hnames others hothers heq
    exact pathOf_injective path
      (isOrdinary_of_mem_placesIn hwell (List.mem_filter.1 hnames).1).2
      (isOrdinary_of_mem_placesIn hwell (List.mem_filter.1 hothers).1).2 heq
  · simp only [List.mem_mergeSort, List.mem_map, List.mem_filter, hmem]
    constructor
    · rintro ⟨names, ⟨⟨file, hfile⟩, hkeeps⟩, rfl⟩
      exact ⟨names, file, hfile, rfl, hkeeps⟩
    · rintro ⟨names, file, hfile, rfl, hkeeps⟩
      exact ⟨names, ⟨⟨file, hfile⟩, hkeeps⟩, rfl⟩

/-- A search finds, in strict order, exactly the files below its start that are test files, lie in no
skipped directory, and are matched by no pattern. More patterns only take files away. -/
theorem testFiles_iff_kept (patterns : List Utf16) :
    ∃ files, testFiles disk path (.list (patterns.map .text)) = .ok files ∧
      files.Pairwise (· < ·) ∧
      (∀ found, found ∈ files ↔ ∃ names file,
        (Entry.directory entries).at? names = some (.file file) ∧
        found = startOf path ++ join names ∧ isTestFile (join names) ∧
        (∀ name ∈ names.dropLast, name ∉ skippedDirectories) ∧
        ∀ pattern ∈ patterns, matchesText (join names) pattern = false) ∧
      ∀ more, patterns ⊆ more →
        ∃ fewer, testFiles disk path (.list (more.map .text)) = .ok fewer ∧
          fewer.Sublist files ∧ (more ⊆ patterns → fewer = files) := by
  obtain ⟨files, hfiles, hsorted, hkept⟩ := exists_testFiles_eq hfound hwell patterns
  refine ⟨files, hfiles, hsorted, ?_, ?_⟩
  · simpa only [keeps_iff] using hkept
  · intro more hmore
    obtain ⟨fewer, hfewer, hsorted', hkept'⟩ := exists_testFiles_eq hfound hwell more
    have hfewer_of : ∀ {few many : List Utf16}, few ⊆ many → ∀ names, keeps many names →
        keeps few names := by
      intro few many hle names hkeeps
      rw [keeps_iff] at hkeeps ⊢
      exact ⟨hkeeps.1, hkeeps.2.1, fun pattern hpattern => hkeeps.2.2 pattern (hle hpattern)⟩
    have hsubset : fewer ⊆ files := by
      intro found hmem
      obtain ⟨names, file, hfile, rfl, hkeeps⟩ := (hkept' found).1 hmem
      exact (hkept _).2 ⟨names, file, hfile, rfl, hfewer_of hmore names hkeeps⟩
    refine ⟨fewer, hfewer, sublist_of_pairwise_lt hsorted' hsorted hsubset, fun hle => ?_⟩
    refine List.Pairwise.eq_of_mem_iff hsorted' hsorted fun found => ?_
    rw [hkept, hkept']
    constructor
    · rintro ⟨names, file, hfile, rfl, hkeeps⟩
      exact ⟨names, file, hfile, rfl, hfewer_of hmore names hkeeps⟩
    · rintro ⟨names, file, hfile, rfl, hkeeps⟩
      exact ⟨names, file, hfile, rfl, hfewer_of hle names hkeeps⟩

end

/-- A project with tests below `cypress` and in the packages that are installed there. -/
def nestedDisk : Disk where
  home := "/project"
  root := .directory [("project", .directory [("cypress", .directory [
    ("a.js", .file (.plain [])),
    ("b.cy.js", .file (.plain [])),
    ("node_modules", .directory [("c.cy.js", .file (.plain []))])])])]

theorem find?_nestedDisk : nestedDisk.find? "." = some (.directory [("cypress", .directory [
    ("a.js", .file (.plain [])),
    ("b.cy.js", .file (.plain [])),
    ("node_modules", .directory [("c.cy.js", .file (.plain []))])])]) :=
  Disk.find?_dot (by decide +kernel) rfl

/-- With an exclusion that matches one of its files, the other test file of the project is found. -/
theorem testFiles_of_nested : ∃ files,
    testFiles nestedDisk "." (.list [.text "b.cy.js"]) = .ok files ∧ "./cypress/a.js" ∈ files ∧
      files.Pairwise (· < ·) := by
  obtain ⟨files, hfiles, hsorted, hkept, -⟩ :=
    testFiles_iff_kept find?_nestedDisk rfl ["b.cy.js"]
  refine ⟨files, hfiles, (hkept _).2 ⟨["cypress", "a.js"], .plain [], rfl, ?_⟩, hsorted⟩
  decide +kernel

end FlakeLint.Discovery
