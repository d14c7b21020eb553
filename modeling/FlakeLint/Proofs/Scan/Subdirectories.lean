-- SUMMARY: A search that starts in a subdirectory finds fewer files than one that starts above it.
import FlakeLint.Proofs.Scan.FoundFiles

/-!
# Searches that start further down

Whether a file is a test is read off its path from the start of the search. A
search that starts in a subdirectory no longer sees the directories above, so it
misses the files that are tests for nothing but a test directory up there.
-/

namespace FlakeLint.Discovery

open FlakeLint.Path (join isStep)
open Entry (isOrdinary)
open Text (endsWith contains)

-- ---------------------------------------------------------------------------
-- Test files, seen from above
-- ---------------------------------------------------------------------------

section

variable {steps names : List String}

theorem isTestFile_join (h : ∀ name ∈ names, isStep name) : isTestFile (join names) =
    (extensions.any (endsWith (names.getLast?.getD "")) &&
      (nameMarkers.any (contains (names.getLast?.getD "")) ||
        names.dropLast.any testDirectories.contains)) := by
  simp only [isTestFile, Path.name_join h, Path.parentParts_join h]

/-- From further up a file is a test if it is one from further down, and otherwise only for a test
directory in between. -/
theorem isTestFile_append (hsteps : ∀ name ∈ steps ++ names, isStep name) (hnames : names ≠ []) :
    (isTestFile (join names) → isTestFile (join (steps ++ names))) ∧
      (isTestFile (join (steps ++ names)) → isTestFile (join names) = false →
        ∃ name ∈ steps, name ∈ testDirectories) := by
  rw [isTestFile_join hsteps, isTestFile_join (List.forall_mem_append.1 hsteps).2,
    List.getLast?_append_of_ne_nil _ hnames, List.dropLast_append_of_ne_nil hnames, List.any_append]
  cases extensions.any (endsWith (names.getLast?.getD "")) <;>
    cases nameMarkers.any (contains (names.getLast?.getD "")) <;>
    cases names.dropLast.any testDirectories.contains <;> simp

end

-- ---------------------------------------------------------------------------
-- Two searches
-- ---------------------------------------------------------------------------

/-- Started in a subdirectory, a search finds just those files found from further up that are tests by
their path from the subdirectory on. It misses a file only if there is a test directory between the two
starts. -/
theorem testFiles_subdirectory {disk : Disk} {path sub : String} {steps : List String}
    {entries inner : List (String × Entry)}
    (hfound : disk.find? path = some (.directory entries))
    (hwell : (Entry.directory entries).isWellNamed)
    (hsub : disk.find? sub = some (.directory inner))
    (hat : (Entry.directory entries).at? steps = some (.directory inner))
    (hfree : ∀ name ∈ steps, name ∉ skippedDirectories) :
    ∃ all below, testFiles disk path (.list []) = .ok all ∧
      testFiles disk sub (.list []) = .ok below ∧
      (∀ found ∈ below, ∃ names file, (Entry.directory inner).at? names = some (.file file) ∧
        found = startOf sub ++ join names) ∧
      ∀ names file, (Entry.directory inner).at? names = some (.file file) →
        (startOf sub ++ join names ∈ below ↔
          startOf path ++ join (steps ++ names) ∈ all ∧ isTestFile (join names)) ∧
        (startOf path ++ join (steps ++ names) ∈ all → startOf sub ++ join names ∉ below →
          ∃ name ∈ steps, name ∈ testDirectories) := by
  obtain ⟨hinner, hsteps⟩ := Entry.isWellNamed_of_at? hwell hat
  obtain ⟨all, hall, -, hmem⟩ := exists_testFiles_eq hfound hwell []
  obtain ⟨below, hbelow, -, hmem'⟩ := exists_testFiles_eq hsub hinner []
  refine ⟨all, below, hall, hbelow, fun found hin => ?_, fun names file hfile => ?_⟩
  · obtain ⟨names, file, hfile, hfound, -⟩ := (hmem' found).1 hin
    exact ⟨names, file, hfile, hfound⟩
  · have hordinary := (Entry.isWellNamed_of_at? hinner hfile).2
    have hwhole : (Entry.directory entries).at? (steps ++ names) = some (.file file) := by
      rw [Entry.at?_append, hat, Option.bind_some, hfile]
    have hwhole' := (Entry.isWellNamed_of_at? hwell hwhole).2
    -- A path stands for one place only, so membership is decided by the rule at this place.
    have hinAll : startOf path ++ join (steps ++ names) ∈ all ↔ keeps [] (steps ++ names) := by
      rw [hmem]
      constructor
      · rintro ⟨others, other, hother, heq, hkeeps⟩
        rwa [pathOf_injective path hwhole' (Entry.isWellNamed_of_at? hwell hother).2 heq]
      · exact fun hkeeps => ⟨_, file, hwhole, rfl, hkeeps⟩
    have hinBelow : startOf sub ++ join names ∈ below ↔ keeps [] names := by
      rw [hmem']
      constructor
      · rintro ⟨others, other, hother, heq, hkeeps⟩
        rwa [pathOf_injective sub hordinary (Entry.isWellNamed_of_at? hinner hother).2 heq]
      · exact fun hkeeps => ⟨names, file, hfile, rfl, hkeeps⟩
    have hne : names ≠ [] := by
      rintro rfl
      simp at hfile
    obtain ⟨hup, hdown⟩ := isTestFile_append
      (fun name hname => isStep_of_isOrdinary (hwhole' name hname)) hne
    rw [hinAll, hinBelow, keeps_iff, keeps_iff, List.dropLast_append_of_ne_nil hne,
      List.forall_mem_append]
    constructor
    · constructor
      · rintro ⟨htest, hskipped, -⟩
        exact ⟨⟨hup htest, ⟨hfree, hskipped⟩, by simp⟩, htest⟩
      · rintro ⟨⟨-, ⟨-, hskipped⟩, -⟩, htest⟩
        exact ⟨htest, hskipped, by simp⟩
    · rintro ⟨htest, ⟨-, hskipped⟩, -⟩ hmissed
      refine hdown htest (Bool.not_eq_true _ ▸ fun hbelow => hmissed ?_)
      exact ⟨hbelow, hskipped, by simp⟩

/-- A file in a `cypress` directory is found from the project on, and missed from that directory on. -/
theorem testFiles_of_cypress : ∃ all below,
    testFiles nestedDisk "." (.list []) = .ok all ∧
      testFiles nestedDisk "cypress" (.list []) = .ok below ∧
      "./cypress/a.js" ∈ all ∧ "cypress/a.js" ∉ below := by
  have hsteps : nestedDisk.start "cypress" ++ Path.steps "cypress" = ["project", "cypress"] := rfl
  have hsub := Disk.find?_of_at? (by decide) hsteps rfl rfl
  obtain ⟨all, below, hall, hbelow, -, hmem⟩ :=
    @testFiles_subdirectory nestedDisk "." "cypress" ["cypress"] _ _ find?_nestedDisk
      rfl hsub rfl (by decide)
  obtain ⟨files, hfiles, -, hkept⟩ := exists_testFiles_eq find?_nestedDisk rfl []
  obtain rfl : files = all := Except.ok.inj (hfiles.symm.trans hall)
  have hmissed : startOf "cypress" ++ join ["a.js"] ∉ below := by
    intro hin
    exact absurd ((hmem ["a.js"] (.plain []) rfl).1.1 hin).2 (by decide +kernel)
  have hpath : startOf "cypress" ++ join ["a.js"] = "cypress/a.js" := rfl
  refine ⟨files, below, hall, hbelow, (hkept _).2 ⟨["cypress", "a.js"], .plain [], rfl, ?_⟩,
    hpath ▸ hmissed⟩
  decide +kernel

end FlakeLint.Discovery
