-- SUMMARY: A scan accounts for each file by itself: one report per file, independent of all other files.
import FlakeLint.Proofs.Scan.FileReports

/-!
# Files one by one

A scan puts its figures together from one report per file. What the report of a file
says follows from that file alone, so a file that gets other contents, which may not
even parse, changes nothing that is said about the other ones.
-/

namespace FlakeLint

-- ---------------------------------------------------------------------------
-- Figures
-- ---------------------------------------------------------------------------

theorem Codebase.of_ofOutputs {outputs : List Output} {failures : List Failure}
    {codebase : Codebase} (h : ofOutputs outputs failures = .ok codebase) :
    codebase.outputs = outputs ∧ codebase.failures = failures := by
  obtain ⟨score, -, h⟩ := exists_eq_ok_of_bind h
  obtain ⟨summary, -, h⟩ := exists_eq_ok_of_bind h
  cases h
  exact ⟨rfl, rfl⟩

theorem Visit.map_shownPath_filter (visits : List Visit) :
    (visits.filter isSkipped).map shownPath = visits.flatMap fun visit => visit.report.skipped := by
  induction visits with
  | nil => rfl
  | cons visit visits ih =>
    rw [List.filter_cons, List.flatMap_cons, ← ih, report]
    cases visit.isSkipped <;> simp

namespace ScanReport

/-- The analysis of a file that is found and can be read is stopped by parse failures only. -/
def OnlyParseFaults (disk : Disk) (grammars : List String) (settings : Settings) (path : String) :
    Prop :=
  ∀ files, Discovery.testFiles disk path (settings.value .exclude) = .ok files →
    ∀ file ∈ files, ∀ content text, disk.read file = .ok (content, text) →
      FailsOnly Fault.IsParse (Analysis.ofSource ⟨grammars, content.outlines⟩
        (Path.shown disk.home disk.cwd file) (String.ofList text) (.table settings))

/-- The figures of a scan are the reports of the files one after the other. -/
structure IsOf (files : List String) (report : String → FileReport) (scanned : ScanReport) :
    Prop where
  filesFound : scanned.filesFound = files.length
  outputs : scanned.codebase.outputs = files.flatMap fun file => (report file).outputs
  failures : scanned.codebase.failures = files.flatMap fun file => (report file).failures
  skipped : scanned.skipped = files.flatMap fun file => (report file).skipped
  isFine : scanned.hasFailures = false ↔ ∀ file ∈ files, (report file).failures = []

/-- The reports are those of the files that a search finds, no file could have another one, and what a
scan ends with is made of them. It does end so, unless there are more files than any list holds. -/
structure Accounts (disk : Disk) (grammars : List String) (settings : Settings) (path : String)
    (files : List String) (report : String → FileReport) : Prop where
  found : Discovery.testFiles disk path (settings.value .exclude) = .ok files
  ofFile : ∀ file ∈ files, FileReport.OfFile disk grammars settings file (report file)
  unique : ∀ file ∈ files, ∀ other, FileReport.OfFile disk grammars settings file other →
    other = report file
  figures : ∀ scanned, scan disk grammars path (.table settings) = .ok scanned →
    scanned.IsOf files report
  ends : files.length < 2 ^ 1023 → ∃ scanned, scan disk grammars path (.table settings) = .ok scanned

theorem isOf_of_ofVisits {visits : List Visit} {files : List String} {report : String → FileReport}
    {scanned : ScanReport} (hvisits : visits.map Visit.report = files.map report)
    (h : ofVisits visits = .ok scanned) : scanned.IsOf files report := by
  obtain ⟨codebase, hcodebase, h⟩ := exists_eq_ok_of_bind h
  cases h
  obtain ⟨houtputs, hfailures⟩ := Codebase.of_ofOutputs hcodebase
  have hflatMap {α : Type} (part : FileReport → List α) :
      visits.flatMap (fun visit => part visit.report) =
        files.flatMap fun file => part (report file) := by
    have hparts := congrArg (List.flatMap part) hvisits
    rwa [List.flatMap_map, List.flatMap_map] at hparts
  have hfailed : codebase.failures = files.flatMap fun file => (report file).failures := by
    rw [hfailures, List.filterMap_eq_flatMap_toList]
    exact hflatMap FileReport.failures
  exact {
    filesFound := by simpa using congrArg List.length hvisits
    outputs := houtputs.trans (hflatMap FileReport.outputs)
    failures := hfailed
    skipped := (Visit.map_shownPath_filter visits).trans (hflatMap FileReport.skipped)
    isFine := by simp [hasFailures, hfailed] }

-- ---------------------------------------------------------------------------
-- Scans
-- ---------------------------------------------------------------------------

section

variable {disk : Disk} {grammars : List String} {settings : Settings} {path : String}

/-- A found file whose path can be shown has a report. -/
theorem exists_ofFile (hvalid : settings.IsValid)
    (honly : OnlyParseFaults disk grammars settings path) {files : List String}
    (hfiles : Discovery.testFiles disk path (settings.value .exclude) = .ok files) {file : String}
    (hfile : file ∈ files) (hshown : ¬ disk.FaultsOn file) :
    ∃ report, FileReport.OfFile disk grammars settings file report := by
  have hpath := Disk.shown_eq_of_not_faultsOn hshown
  cases hread : disk.read file with
  | error cause => exact ⟨_, .unreadable hpath hread⟩
  | ok pair =>
    obtain ⟨report, hreport⟩ :=
      FileReport.exists_ofSource hvalid (honly files hfiles file hfile pair.1 pair.2 hread)
    exact ⟨report, .readable hpath hread hreport⟩

/-- A scan in which the path of some file cannot be shown is stopped by the first such file. -/
theorem scan_of_faultsOn (hvalid : settings.IsValid)
    (honly : OnlyParseFaults disk grammars settings path) {before after : List String} {file : String}
    (hfiles : Discovery.testFiles disk path (settings.value .exclude) =
      .ok (before ++ file :: after))
    (hbefore : ∀ earlier ∈ before, ¬ disk.FaultsOn earlier) (hfaults : disk.FaultsOn file) :
    scan disk grammars path (.table settings) =
      .error (.linkCircle ("/" ++ Path.join (Path.stepsFromRoot disk.cwd file))) := by
  have hvisits : ∃ visits, before.mapM (visitFile disk grammars (.table settings)) = .ok visits := by
    have hvisit : ∀ earlier ∈ before, ∃ visit,
        visitFile disk grammars (.table settings) earlier = .ok visit ∧ () = () := by
      intro earlier hearlier
      obtain ⟨report, hreport⟩ := exists_ofFile hvalid honly hfiles
        (List.mem_append_left _ hearlier) (hbefore earlier hearlier)
      obtain ⟨visit, hvisit, -⟩ := hreport.exists_visit
      exact ⟨visit, hvisit, rfl⟩
    obtain ⟨visits, hvisits, -⟩ := exists_mapM_eq_ok hvisit
    exact ⟨visits, hvisits⟩
  obtain ⟨visits, hvisits⟩ := hvisits
  have hstopped : visitFile disk grammars (.table settings) file =
      .error (.linkCircle ("/" ++ Path.join (Path.stepsFromRoot disk.cwd file))) := by
    rcases disk.shown_cases file with ⟨-, hshown⟩ | ⟨hshowable, -⟩
    · unfold visitFile
      rw [hshown]
      rfl
    · exact absurd hfaults hshowable
  unfold scan
  rw [visitAll_eq hvalid hfiles, List.mapM_append, hvisits, List.mapM_cons, hstopped]
  rfl

theorem exists_accounts (hvalid : settings.IsValid)
    (honly : OnlyParseFaults disk grammars settings path) {files : List String}
    (hfiles : Discovery.testFiles disk path (settings.value .exclude) = .ok files)
    (hshown : ∀ file ∈ files, ¬ disk.FaultsOn file) :
    ∃ report, Accounts disk grammars settings path files report := by
  have hexists : ∀ file ∈ files, ∃ report, FileReport.OfFile disk grammars settings file report :=
    fun file hfile => exists_ofFile hvalid honly hfiles hfile (hshown file hfile)
  choose! report hreport using hexists
  obtain ⟨visits, hvisits, hsame⟩ := exists_mapM_eq_ok fun file hfile =>
    (hreport file hfile).exists_visit
  have hscan : scan disk grammars path (.table settings) = ofVisits visits := by
    unfold scan
    rw [visitAll_eq hvalid hfiles, hvisits]
    rfl
  refine ⟨report, hfiles, hreport, fun file hfile other => (hreport file hfile).unique, ?_, ?_⟩
  · intro scanned hscanned
    exact isOf_of_ofVisits hsame (hscan ▸ hscanned)
  · intro hfew
    have hregular : ∀ visit ∈ visits, visit.outputs.length ≤ 1 ∧
        ∀ output ∈ visit.outputs, output.HasModestScore := by
      intro visit hvisit
      have hmem := List.mem_map_of_mem (f := Visit.report) hvisit
      rw [hsame] at hmem
      obtain ⟨file, hfile, heq⟩ := List.mem_map.1 hmem
      have houtputs : visit.outputs = (report file).outputs := congrArg FileReport.outputs heq.symm
      rw [houtputs]
      exact (hreport file hfile).outputs_regular
    have hlength : visits.length = files.length := by simpa using congrArg List.length hsame
    rw [hscan]
    exact ofVisits_ok hregular (hlength ▸ hfew)

/-- A visit that comes to an end was not stopped. -/
theorem onlyParseFaults_of_visitFile {files : List String}
    (hfiles : Discovery.testFiles disk path (settings.value .exclude) = .ok files)
    (h : ∀ file ∈ files, (visitFile disk grammars (.table settings) file).isOk ∨
      (disk.read file).isOk = false) :
    OnlyParseFaults disk grammars settings path := by
  intro others hothers file hfile content text hread fault hfault
  obtain rfl := Except.ok.inj (hfiles.symm.trans hothers)
  rcases h file hfile with hvisit | hunread
  swap
  · rw [hread] at hunread
    cases hunread
  unfold visitFile at hvisit
  rcases disk.shown_cases file with ⟨-, hshown⟩ | ⟨-, hshown⟩
  · rw [hshown] at hvisit
    cases hvisit
  · simp only [hshown, hread, bind, Except.bind, hfault] at hvisit
    cases fault with
    | parse failure => exact ⟨failure, rfl⟩
    | _ => cases hvisit

/-- Two directories that are scanned together, the project and one beside it, with a file of each kind:
one that is analysed, one that is no text, one without a tree, one that may not be read, and two that no
checker is for. -/
def mixedDisk : Disk where
  home := "/src/app"
  cwd := "/src"
  root := .directory [("src", .directory [
    ("app", .directory [
      ("cypress", .directory [
        ("a.cy.js", .file
          ⟨Utf8.encode (Sample.source "5000").toList, (Sample.parsers "5000").outlines, none⟩),
        ("b.cy.js", .file (.plain [0xFF])),
        ("c.cy.js", .file (.plain [])),
        ("e.cy.js", .file ⟨[], [], some .denied⟩)]),
      ("d.test.js", .file (.plain []))]),
    ("old", .directory [("f.test.js", .file (.plain []))])])]

/-- A project with a link to itself before another file. -/
def linkedDisk : Disk where
  home := "/app"
  root := .directory [("app", .directory [("cypress", .directory [
    ("a.cy.js", .file ⟨[], [], some .circle⟩), ("b.cy.js", .file (.plain []))])])]

def linkedFiles : List String :=
  ["./cypress/a.cy.js", "./cypress/b.cy.js"]

def mixedFiles : List String :=
  ["./app/cypress/a.cy.js", "./app/cypress/b.cy.js", "./app/cypress/c.cy.js",
    "./app/cypress/e.cy.js", "./app/d.test.js", "./old/f.test.js"]

/-- Without exclusions, a search of the working directory whose files come in order yields them so. -/
theorem testFiles_of_sorted {disk : Disk} {entries : List (String × Entry)} {found files : List String}
    (hdown : ".." ∉ Path.steps disk.cwd)
    (hroot : disk.root.at? (Path.steps disk.cwd) = some (.directory entries))
    (hfound : Discovery.below [] "" entries = .ok found)
    (hfiles : found.map (fun file => Discovery.startOf "." ++ file) = files)
    (hsorted : files.Pairwise fun file other => decide (file ≤ other)) :
    Discovery.testFiles disk "." (Settings.defaults.value .exclude) = .ok files := by
  have hexclude : Discovery.Exclusion.ofSetting (Settings.defaults.value .exclude) = .ok [] := rfl
  have hsame := List.mergeSort_of_pairwise hsorted
  unfold Discovery.testFiles
  rw [Disk.find?_dot hdown hroot, hexclude]
  simp only [bind, Except.bind, hfound, hfiles, hsame]
  rfl

theorem testFiles_mixedDisk :
    Discovery.testFiles mixedDisk "." (Settings.defaults.value .exclude) = .ok mixedFiles :=
  testFiles_of_sorted (by decide +kernel) rfl rfl rfl (by decide +kernel)

theorem testFiles_linkedDisk :
    Discovery.testFiles linkedDisk "." (Settings.defaults.value .exclude) = .ok linkedFiles :=
  testFiles_of_sorted (by decide +kernel) rfl rfl rfl (by decide +kernel)

theorem onlyParseFaults_mixedDisk :
    OnlyParseFaults mixedDisk [defaultGrammar] Settings.defaults "." :=
  onlyParseFaults_of_visitFile testFiles_mixedDisk (by decide +kernel)

end

end ScanReport

end FlakeLint
