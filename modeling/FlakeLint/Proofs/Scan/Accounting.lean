-- SUMMARY: The counts of a scan add up to the files found, except for rated files that look alike in reports.
import FlakeLint.Proofs.Scan.Figures
import FlakeLint.Proofs.Scan.FoundOnce
import FlakeLint.Proofs.Scan.Isolation

/-!
# Accounting for files

Every file that a scan finds is skipped, fails or is rated. The rated files are counted
by the paths that are shown for them, so two that differ in slashes and backslashes
only count as one, and the counts do not add up then.
-/

namespace FlakeLint

variable {disk : Disk} {grammars : List String} {settings : Settings} {path : String}

-- ---------------------------------------------------------------------------
-- One file
-- ---------------------------------------------------------------------------

/-- What a checker says about a file bears the path of the file. -/
theorem Checker.path_of_analyze {checker : Checker} {file : TestFile} {output : Output}
    (h : checker.analyze file = .ok output) : output.path = file.path := by
  obtain ⟨issues, -, h⟩ := exists_eq_ok_of_bind h
  obtain ⟨blocks, -, h⟩ := exists_eq_ok_of_bind h
  obtain ⟨score, -, h⟩ := exists_eq_ok_of_bind h
  obtain ⟨summary, -, h⟩ := exists_eq_ok_of_bind h
  cases h
  rfl

namespace FileReport

variable {report : FileReport}

/-- Has some checker rated the file? -/
def isRated (report : FileReport) : Bool :=
  !report.outputs.isEmpty

/-- A file is skipped, fails or is rated, and only one of these. -/
theorem OfFile.counts_once (h : OfFile disk grammars settings path report) :
    report.skipped.length + report.failures.length + report.isRated.toNat = 1 := by
  cases h with
  | unreadable hshown hread => rfl
  | readable hshown hread hsource =>
    cases hsource with
    | skipped hnone hanalysis => rfl
    | malformed hsome hparse hanalysis => rfl
    | checked hsome hparse hanalysis hcheckers houtputs =>
      rename_i result outputs
      have hne : outputs ≠ [] := by
        intro hnil
        rw [hnil] at hcheckers
        exact hsome hcheckers.symm
      cases outputs with
      | nil => exact absurd rfl hne
      | cons first rest => rfl

theorem OfFile.path_of_mem_outputs (h : OfFile disk grammars settings path report) {output : Output}
    (houtput : output ∈ report.outputs) :
    output.path = Path.shown disk.home disk.cwd path := by
  cases h with
  | unreadable hshown hread => cases houtput
  | readable hshown hread hsource =>
    rcases disk.shown_cases path with ⟨-, hfault⟩ | ⟨-, hpath⟩
    · rw [hshown] at hfault
      cases hfault
    rw [← Except.ok.inj (hshown.symm.trans hpath)]
    cases hsource with
    | skipped hnone hanalysis => cases houtput
    | malformed hsome hparse hanalysis => cases houtput
    | checked hsome hparse hanalysis hcheckers houtputs =>
      obtain ⟨pair, hpair, rfl⟩ := List.mem_map.1 houtput
      exact Checker.path_of_analyze (houtputs pair hpair)

end FileReport

-- ---------------------------------------------------------------------------
-- All files
-- ---------------------------------------------------------------------------

namespace ScanReport

variable {files : List String} {report : String → FileReport} {scanned : ScanReport}

/-- The files that some checker rates. -/
def ratedOf (files : List String) (report : String → FileReport) : Set String :=
  {file | file ∈ files ∧ (report file).isRated = true}

theorem ncard_ratedOf (h : files.Nodup) (report : String → FileReport) :
    (ratedOf files report).ncard = (files.filter fun file => (report file).isRated).length := by
  have hset : ((files.filter fun file => (report file).isRated).toFinset : Set String) =
      ratedOf files report := by
    ext file
    simp [ratedOf]
  rw [← hset, Set.ncard_coe_finset, List.toFinset_card_of_nodup (h.filter _)]

theorem finite_ratedOf (files : List String) (report : String → FileReport) :
    (ratedOf files report).Finite :=
  (List.finite_toSet files).subset fun _ hfile => hfile.1

/-- Over any files that count once each, the three counts add up to the number of the files. -/
theorem length_eq_of_counts_once
    (h : ∀ file ∈ files,
      (report file).skipped.length + (report file).failures.length + (report file).isRated.toNat = 1) :
    (files.flatMap fun file => (report file).skipped).length +
        (files.flatMap fun file => (report file).failures).length +
        (files.filter fun file => (report file).isRated).length = files.length := by
  induction files with
  | nil => rfl
  | cons file files ih =>
    rw [List.forall_mem_cons] at h
    have hrest := ih h.2
    have hfile := h.1
    rw [List.flatMap_cons, List.flatMap_cons, List.filter_cons, List.length_append,
      List.length_append, List.length_cons]
    cases hrated : (report file).isRated with
    | true =>
      rw [hrated, Bool.toNat_true] at hfile
      rw [if_pos rfl, List.length_cons]
      omega
    | false =>
      rw [hrated, Bool.toNat_false] at hfile
      rw [if_neg Bool.false_ne_true]
      omega

/-- Two maps that identify the same things have images of one size. -/
theorem ncard_image_eq_of_iff {α β γ : Type} {f : α → β} {g : α → γ} {s : Set α}
    (h : ∀ a ∈ s, ∀ b ∈ s, f a = f b ↔ g a = g b) : (f '' s).ncard = (g '' s).ncard := by
  have hfirst : (Prod.fst '' ((fun a => (f a, g a)) '' s)).ncard =
      ((fun a => (f a, g a)) '' s).ncard := by
    apply Set.InjOn.ncard_image
    rintro _ ⟨a, ha, rfl⟩ _ ⟨b, hb, rfl⟩ heq
    exact Prod.ext heq ((h a ha b hb).1 heq)
  have hsecond : (Prod.snd '' ((fun a => (f a, g a)) '' s)).ncard =
      ((fun a => (f a, g a)) '' s).ncard := by
    apply Set.InjOn.ncard_image
    rintro _ ⟨a, ha, rfl⟩ _ ⟨b, hb, rfl⟩ heq
    exact Prod.ext ((h a ha b hb).2 heq) heq
  rw [Set.image_image] at hfirst hsecond
  exact hfirst.trans hsecond.symm

/-- The paths that a scan counts are those shown for the rated files. -/
theorem pathsOf_flatMap
    (h : ∀ file ∈ files, FileReport.OfFile disk grammars settings file (report file)) :
    Codebase.pathsOf (files.flatMap fun file => (report file).outputs) =
      Path.shown disk.home disk.cwd '' ratedOf files report := by
  ext shown
  constructor
  · intro hshown
    obtain ⟨output, houtput, rfl⟩ := hshown
    obtain ⟨file, hfile, houtput⟩ := List.mem_flatMap.1 houtput
    refine ⟨file, ⟨hfile, ?_⟩, ((h file hfile).path_of_mem_outputs houtput).symm⟩
    simp [FileReport.isRated, List.ne_nil_of_mem houtput]
  · intro hshown
    obtain ⟨file, ⟨hfile, hrated⟩, rfl⟩ := hshown
    have hne : (report file).outputs ≠ [] := by
      simpa [FileReport.isRated] using hrated
    obtain ⟨output, houtput⟩ := List.exists_mem_of_ne_nil _ hne
    exact ⟨output, List.mem_flatMap.2 ⟨file, hfile, houtput⟩, (h file hfile).path_of_mem_outputs houtput⟩

/-- A scan that comes to an end has accounted for every file. -/
theorem exists_accounts_of_scan (hvalid : settings.IsValid)
    (h : scan disk grammars path (.table settings) = .ok scanned) :
    ∃ files report, Accounts disk grammars settings path files report := by
  obtain ⟨patterns, hpatterns⟩ := Settings.exclusions_ok hvalid
  obtain ⟨files, hfiles, -⟩ := Discovery.testFiles_ok patterns hpatterns disk path
  obtain ⟨visits, hvisits, -⟩ := exists_eq_ok_of_bind h
  rw [visitAll_eq hvalid hfiles] at hvisits
  refine ⟨files, exists_accounts hvalid ?_ hfiles ?_⟩
  · apply onlyParseFaults_of_visitFile hfiles
    intro file hfile
    obtain ⟨visit, hvisit⟩ := exists_eq_ok_of_mapM hvisits hfile
    rw [hvisit]
    exact .inl rfl
  · intro file hfile hfaults
    obtain ⟨visit, hvisit⟩ := exists_eq_ok_of_mapM hvisits hfile
    rcases disk.shown_cases file with ⟨-, hshown⟩ | ⟨hshowable, -⟩
    · unfold visitFile at hvisit
      rw [hshown] at hvisit
      cases hvisit
    · exact hshowable hfaults

/-- The files of a code base are counted by the paths in its results. -/
theorem fileCount_of_scan (h : scan disk grammars path (.table settings) = .ok scanned) :
    scanned.codebase.fileCount = (Codebase.pathsOf scanned.codebase.outputs).ncard := by
  obtain ⟨visits, -, h⟩ := exists_eq_ok_of_bind h
  obtain ⟨codebase, hcodebase, h⟩ := exists_eq_ok_of_bind h
  cases h
  obtain ⟨-, hcount, -⟩ := Codebase.figures_of_ofOutputs hcodebase
  rw [hcount, Codebase.length_filesOf, (Codebase.of_ofOutputs hcodebase).1]

/-- A scan finds different files. Those that are skipped, that fail and that are rated add up to all of
them, but the rated ones are counted by the paths that are shown for them. So the counts that are
reported add up exactly if all these paths are different. Unless the project is somewhere below the start
of the scan, that is so exactly if no two rated files differ in slashes and backslashes only. -/
theorem counts_add_up_iff (hvalid : settings.IsValid) (hnamed : disk.root.isNamedBy Entry.isName)
    (h : scan disk grammars path (.table settings) = .ok scanned) :
    ∃ files report, Accounts disk grammars settings path files report ∧
      files.Nodup ∧ scanned.filesFound = files.length ∧
      scanned.skipped.length + scanned.codebase.failures.length + (ratedOf files report).ncard =
        scanned.filesFound ∧
      scanned.codebase.fileCount =
        (Path.shown disk.home disk.cwd '' ratedOf files report).ncard ∧
      (scanned.skipped.length + scanned.codebase.failures.length + scanned.codebase.fileCount =
        scanned.filesFound ↔ (ratedOf files report).InjOn (Path.shown disk.home disk.cwd)) ∧
      (¬ disk.LeadsAboveHome path →
        scanned.codebase.fileCount = (Path.slashed '' ratedOf files report).ncard ∧
        (scanned.skipped.length + scanned.codebase.failures.length + scanned.codebase.fileCount =
          scanned.filesFound ↔ (ratedOf files report).InjOn Path.slashed)) := by
  obtain ⟨files, report, haccounts⟩ := exists_accounts_of_scan hvalid h
  have hfigures := haccounts.figures scanned h
  have hnodup := Discovery.nodup_of_testFiles hnamed haccounts.found
  have hcounts : scanned.skipped.length + scanned.codebase.failures.length +
      (ratedOf files report).ncard = scanned.filesFound := by
    rw [hfigures.skipped, hfigures.failures, hfigures.filesFound, ncard_ratedOf hnodup]
    exact length_eq_of_counts_once fun file hfile => (haccounts.ofFile file hfile).counts_once
  have hfileCount : scanned.codebase.fileCount =
      (Path.shown disk.home disk.cwd '' ratedOf files report).ncard := by
    rw [fileCount_of_scan h, hfigures.outputs, pathsOf_flatMap haccounts.ofFile]
  have hadds_up {f : String → String} (hcount : scanned.codebase.fileCount =
      (f '' ratedOf files report).ncard) :
      scanned.skipped.length + scanned.codebase.failures.length + scanned.codebase.fileCount =
        scanned.filesFound ↔ (ratedOf files report).InjOn f := by
    rw [← Set.ncard_image_iff (finite_ratedOf files report), ← hcount, ← hcounts]
    exact Nat.add_left_cancel_iff
  refine ⟨files, report, haccounts, hnodup, hfigures.filesFound, hcounts, hfileCount,
    hadds_up hfileCount, fun habove => ?_⟩
  have halike := Discovery.shown_alike_iff hnamed habove haccounts.found
  have hslashed : scanned.codebase.fileCount = (Path.slashed '' ratedOf files report).ncard := by
    rw [hfileCount]
    apply ncard_image_eq_of_iff
    intro file hfile other hother
    exact halike file hfile.1 other hother.1
  exact ⟨hslashed, hadds_up hslashed⟩

/-- A file that one checker rates. -/
def ratedFile : File where
  bytes := Utf8.encode (Sample.source "5000").toList
  outlines := (Sample.parsers "5000").outlines

/-- A project with two test files whose paths differ in one character, a slash or a backslash. -/
def twinDisk : Disk where
  home := "/project"
  root := .directory [("project", .directory [("cypress", .directory [
    ("a", .directory [("b.cy.js", .file ratedFile)]),
    ("a\\b.cy.js", .file ratedFile)])])]

def twinFiles : List String :=
  ["./cypress/a/b.cy.js", "./cypress/a\\b.cy.js"]

theorem testFiles_twinDisk :
    Discovery.testFiles twinDisk "." (Settings.defaults.value .exclude) = .ok twinFiles :=
  testFiles_of_sorted (by decide +kernel) rfl rfl rfl (by decide +kernel)

/-- Both files are rated, and they count as one. -/
theorem counts_of_twinDisk : ∃ scanned,
    scan twinDisk [defaultGrammar] "." (.table Settings.defaults) = .ok scanned ∧
      scanned.filesFound = 2 ∧
      scanned.skipped.length + scanned.codebase.failures.length = 0 ∧
      scanned.codebase.fileCount = 1 := by
  have hvalid := Settings.isValid_of_isSound Settings.defaults_isSound
  have hvisits : ∀ file ∈ twinFiles,
      (visitFile twinDisk [defaultGrammar] (.table Settings.defaults) file).toOption.any
        (fun visit => visit.report.isRated) = true := by
    decide +kernel
  obtain ⟨scanned, hscanned⟩ : ∃ scanned,
      scan twinDisk [defaultGrammar] "." (.table Settings.defaults) = .ok scanned := by
    have honly : OnlyParseFaults twinDisk [defaultGrammar] Settings.defaults "." := by
      apply onlyParseFaults_of_visitFile testFiles_twinDisk
      decide +kernel
    have hshown : ∀ file ∈ twinFiles, ¬ twinDisk.FaultsOn file := by decide +kernel
    obtain ⟨report, haccounts⟩ := exists_accounts hvalid honly testFiles_twinDisk hshown
    apply haccounts.ends
    have hmany : 2 < 2 ^ 1023 := lt_self_pow₀ one_lt_two (by norm_num)
    exact hmany
  obtain ⟨files, report, haccounts, hnodup, hfound, hcounts, -, -, hbelow⟩ :=
    counts_add_up_iff hvalid rfl hscanned
  have hstart : Path.stepsFromRoot twinDisk.cwd "." = Path.steps twinDisk.home := rfl
  obtain ⟨hfileCount, -⟩ := hbelow (Disk.not_leadsAboveHome hstart)
  obtain rfl := Except.ok.inj (haccounts.found.symm.trans testFiles_twinDisk)
  have hrated : ∀ file ∈ twinFiles, (report file).isRated = true := by
    intro file hfile
    obtain ⟨visit, hvisit, hreport⟩ := (haccounts.ofFile file hfile).exists_visit
    have hany := hvisits file hfile
    rw [hvisit] at hany
    rw [← hreport]
    exact hany
  rw [ncard_ratedOf hnodup, List.filter_eq_self.2 hrated, hfound, Nat.add_eq_right] at hcounts
  refine ⟨scanned, hscanned, hfound, hcounts, ?_⟩
  have hsame : ∀ file ∈ twinFiles, Path.slashed file = "./cypress/a/b.cy.js" := by
    decide +kernel
  rw [hfileCount, Set.ncard_eq_one]
  refine ⟨"./cypress/a/b.cy.js", Set.eq_singleton_iff_unique_mem.2 ⟨?_, ?_⟩⟩
  · have hfirst : "./cypress/a/b.cy.js" ∈ twinFiles := List.mem_cons_self
    exact ⟨_, ⟨hfirst, hrated _ hfirst⟩, hsame _ hfirst⟩
  · intro shown hshown
    obtain ⟨file, ⟨hfile, -⟩, rfl⟩ := hshown
    exact hsame file hfile

end ScanReport

end FlakeLint
