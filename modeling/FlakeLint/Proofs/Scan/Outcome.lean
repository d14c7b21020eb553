-- SUMMARY: What analysing a source and scanning a project can end with.
import FlakeLint.Proofs.Number.Score
import FlakeLint.Proofs.Scan.Search
import FlakeLint.Scan

/-!
# Outcomes

With loaded settings, and trees in which every node has a position, there is one
reason for which an analysis ends without a result, apart from a source that does
not parse: a delay is to be reported whose numeral is longer than any that is
written. A scan ends with a report unless it meets such a delay, or a link in a
circle on a system that cannot tell which path such a link stands for.
-/

namespace FlakeLint

variable {settings : Settings}

/-! ## One file -/

theorem Checker.analyze_cases {file : TestFile} (h : file.parsed.root.isPositioned)
    (checker : Checker) :
    checker.isStopped file ∧ checker.analyze file = .error (.number .tooLongToWrite) ∨
    ¬ checker.isStopped file ∧
      ∃ output, checker.analyze file = .ok output ∧ output.HasModestScore := by
  rw [analyze_eq h]
  by_cases hstopped : checker.isStopped file
  · rw [if_pos hstopped]
    exact .inl ⟨hstopped, rfl⟩
  · rw [if_neg hstopped]
    exact .inr ⟨hstopped, checker.rated_ok _ _ _⟩

/-- Running checkers on a file fails exactly if one of them is stopped. -/
theorem Checker.analyzeAll_cases {file : TestFile} (h : file.parsed.root.isPositioned)
    (checkers : List Checker) :
    (∃ checker ∈ checkers, checker.isStopped file) ∧
      checkers.mapM (fun checker => do return (checker, ← checker.analyze file)) =
        .error (.number .tooLongToWrite) ∨
    (¬ ∃ checker ∈ checkers, checker.isStopped file) ∧
      ∃ pairs, checkers.mapM (fun checker => do return (checker, ← checker.analyze file)) =
        .ok pairs ∧ pairs.length = checkers.length ∧ ∀ pair ∈ pairs, pair.2.HasModestScore := by
  apply mapM_cases
  intro checker _
  rcases checker.analyze_cases h with ⟨hstop, hanalyze⟩ | ⟨hgo, output, hanalyze, hmodest⟩
  · rw [hanalyze]
    exact .inl ⟨hstop, rfl⟩
  · rw [hanalyze]
    exact .inr ⟨hgo, (checker, output), rfl, hmodest⟩

namespace Analysis

/-- A checker that runs on the source is to report a delay that is too long to be written. -/
def IsStopped (parsers : Parsers) (path content : String) (settings : Json) : Prop :=
  ∃ checkers result, Checker.running settings (Framework.detect? path content) = .ok checkers ∧
    parsers.parse path content none = .ok result ∧
    ∃ checker ∈ checkers, checker.isStopped (.ofContent path content result.parsed)

/-- What an analysis that comes to an end yields. -/
def IsRegular (analysis : Analysis) : Prop :=
  analysis.outputs.length ≤ 1 ∧ ∀ output ∈ analysis.outputs, output.HasModestScore

/-- A source on which no checker runs is skipped; no parser is asked. -/
theorem ofSource_eq_skipped {path content : String} {settings : Json}
    (h : Checker.running settings (Framework.detect? path content) = .ok []) (parsers : Parsers) :
    ofSource parsers path content settings = .ok (.skipped (Framework.detect? path content)) := by
  unfold ofSource
  simp only [h]
  rfl

/-- A source on which some checker runs is parsed and checked. -/
theorem ofSource_eq {parsers : Parsers} {path content : String} {settings : Json}
    {checkers : List Checker}
    (h : Checker.running settings (Framework.detect? path content) = .ok checkers)
    (hsome : checkers ≠ []) :
    ofSource parsers path content settings =
      (parsers.parse path content none).bind fun result =>
        (checkers.mapM fun checker : Checker => do
          return (checker, ← checker.analyze (.ofContent path content result.parsed))).bind
            fun outputs => .ok (.checked result outputs) := by
  unfold ofSource
  simp only [h]
  cases checkers with
  | nil => exact absurd rfl hsome
  | cons first rest => rfl

theorem ofSource_cases (hsettings : settings.IsSound) {parsers : Parsers}
    (hparsers : parsers.isPositioned) (path content : String) :
    IsStopped parsers path content (.table settings) ∧
      ofSource parsers path content (.table settings) = .error (.number .tooLongToWrite) ∨
    ¬ IsStopped parsers path content (.table settings) ∧
      ((∃ analysis, ofSource parsers path content (.table settings) = .ok analysis ∧
        analysis.IsRegular) ∨
      ∃ failure, ofSource parsers path content (.table settings) = .error (.parse failure)) := by
  have hrunning := Settings.running_eq (Settings.isValid_of_isSound hsettings)
    (Framework.detect? path content)
  have hcount := settings.length_checkersFor_le (Framework.detect? path content)
  generalize settings.checkersFor (Framework.detect? path content) = checkers at hrunning hcount
  have hstopped : IsStopped parsers path content (.table settings) ↔
      ∃ result, parsers.parse path content none = .ok result ∧
        ∃ checker ∈ checkers, checker.isStopped (.ofContent path content result.parsed) := by
    unfold IsStopped
    rw [hrunning]
    simp
  rw [hstopped]
  by_cases hsome : checkers = []
  · subst hsome
    refine .inr ⟨by simp, .inl ⟨_, ofSource_eq_skipped hrunning parsers, ?_, ?_⟩⟩
    · exact Nat.zero_le 1
    · simp [outputs]
  · rw [ofSource_eq hrunning hsome]
    rcases Parsers.parse_cases hparsers path content none with ⟨result, hparse, hroot⟩ |
      ⟨failure, hparse⟩
    · have hfile : (TestFile.ofContent path content result.parsed).parsed.root.isPositioned :=
        hroot
      have hcases := Checker.analyzeAll_cases hfile checkers
      rw [hparse]
      simp only [Except.bind]
      rcases hcases with ⟨hstop, hall⟩ | ⟨hgo, pairs, hall, hlength, hmodest⟩
      · rw [hall]
        exact .inl ⟨⟨result, rfl, hstop⟩, rfl⟩
      · rw [hall]
        refine .inr ⟨?_, .inl ⟨.checked result pairs, rfl, ?_, ?_⟩⟩
        · rintro ⟨found, hfound, hstop⟩
          cases hfound
          exact hgo hstop
        · rw [outputs, List.length_map, hlength]
          exact hcount
        · intro output houtput
          obtain ⟨pair, hpair, rfl⟩ := List.mem_map.1 houtput
          exact hmodest pair hpair
    · rw [hparse]
      exact .inr ⟨by simp, .inr ⟨failure, rfl⟩⟩

end Analysis

namespace Visit

/-- What stops a scan at a file: its path leads in a circle, and the system makes a fault of that; or
the file can be read, and its analysis meets a delay that is too long to be written. -/
inductive IsStoppedBy (disk : Disk) (grammars : List String) (settings : Json) (path : String) :
    Fault → Prop
  | circle (hfaults : disk.FaultsOn path) : IsStoppedBy disk grammars settings path
      (.linkCircle ("/" ++ Path.join (Path.stepsFromRoot disk.cwd path)))
  | delay {file : File} {text : List Char} (hshown : ¬ disk.FaultsOn path)
      (hread : disk.read path = .ok (file, text))
      (hstop : Analysis.IsStopped ⟨grammars, file.outlines⟩
        (Path.shown disk.home disk.cwd path) (String.ofList text) settings) :
      IsStoppedBy disk grammars settings path (.number .tooLongToWrite)

/-- The visit of a file fails with what stops it, and comes to an end if nothing does. -/
theorem visitFile_of_isStoppedBy (hsettings : settings.IsSound) {disk : Disk}
    (hdisk : disk.isPositioned) (grammars : List String) (path : String) :
    (∀ fault, IsStoppedBy disk grammars (.table settings) path fault →
      visitFile disk grammars (.table settings) path = .error fault) ∧
    ((∀ fault, ¬ IsStoppedBy disk grammars (.table settings) path fault) →
      ∃ visit, visitFile disk grammars (.table settings) path = .ok visit ∧
        visit.outputs.length ≤ 1 ∧ ∀ output ∈ visit.outputs, output.HasModestScore) := by
  unfold visitFile
  rcases disk.shown_cases path with ⟨hfaults, hshown⟩ | ⟨hshowable, hshown⟩
  · rw [hshown]
    refine ⟨fun fault hstop => ?_, fun hgo => absurd (.circle hfaults) (hgo _)⟩
    cases hstop with
    | circle _ => rfl
    | delay hshowable _ _ => exact absurd hfaults hshowable
  rw [hshown]
  cases hread : disk.read path with
  | error cause =>
    refine ⟨fun fault hstop => ?_, fun _ => ⟨_, rfl, Nat.zero_le 1, by simp [outputs]⟩⟩
    cases hstop with
    | circle hfaults => exact absurd hfaults hshowable
    | delay _ hfile _ =>
      rw [hread] at hfile
      cases hfile
  | ok pair =>
    obtain ⟨file, text⟩ := pair
    simp only [bind, Except.bind]
    rcases Analysis.ofSource_cases hsettings (Disk.isPositioned_of_read hdisk hread grammars)
      (Path.shown disk.home disk.cwd path) (String.ofList text) with
      ⟨hstopped, hsource⟩ | ⟨hgoes, hcases⟩
    · rw [hsource]
      refine ⟨fun fault hstop => ?_, fun hgo => absurd (.delay hshowable hread hstopped) (hgo _)⟩
      cases hstop with
      | circle hfaults => exact absurd hfaults hshowable
      | delay _ _ _ => rfl
    · refine ⟨fun fault hstop => ?_, fun _ => ?_⟩
      · cases hstop with
        | circle hfaults => exact absurd hfaults hshowable
        | delay _ hfile hstopped =>
          rw [hread] at hfile
          cases hfile
          exact absurd hstopped hgoes
      · rcases hcases with ⟨analysis, hsource, hregular⟩ | ⟨failure, hsource⟩
        · rw [hsource]
          exact ⟨_, rfl, hregular⟩
        · rw [hsource]
          exact ⟨_, rfl, Nat.zero_le 1, by simp [outputs]⟩

end Visit

/-! ## All files -/

namespace ScanReport

/-- Of the files that the search finds, the first at which something stops the scan is stopped by the
fault. -/
def IsPreventedBy (disk : Disk) (grammars : List String) (path : String) (settings : Settings)
    (fault : Fault) : Prop :=
  ∃ files, Discovery.testFiles disk path (settings.value .exclude) = .ok files ∧
    StopsFirst (Visit.IsStoppedBy disk grammars (.table settings)) fault files

/-- With valid settings a scan visits the files that its search finds. -/
theorem visitAll_eq (h : settings.IsValid) {disk : Disk} {path : String} {files : List String}
    (hfiles : Discovery.testFiles disk path (settings.value .exclude) = .ok files)
    (grammars : List String) :
    visitAll disk grammars path (.table settings) =
      files.mapM (visitFile disk grammars (.table settings)) := by
  have hself : (Json.table settings).orElse (.table []) = .table settings := by
    cases settings <;> rfl
  have hfield : (Json.table settings).field? Setting.exclude.name =
      .ok (settings.get? Setting.exclude.key) := rfl
  -- No exclusions and an empty list of them are the same to a search.
  have hexclude : Discovery.testFiles disk path
      ((settings.get? Setting.exclude.key).getD .null) = .ok files := by
    unfold Settings.value at hfiles
    cases hvalue : settings.get? Setting.exclude.key with
    | none =>
      rw [hvalue] at hfiles
      exact hfiles
    | some value =>
      rw [hvalue] at hfiles
      exact hfiles
  unfold visitAll
  simp only [hself, hfield, bind, Except.bind, hexclude]

theorem length_flatMap_outputs_le {visits : List Visit}
    (h : ∀ visit ∈ visits, visit.outputs.length ≤ 1) :
    (visits.flatMap Visit.outputs).length ≤ visits.length := by
  induction visits with
  | nil => exact Nat.zero_le 0
  | cons visit visits ih =>
    rw [List.forall_mem_cons] at h
    have hrest := ih h.2
    rw [List.flatMap_cons, List.length_append, List.length_cons]
    omega

/-- Visits that add one output each at most, with scores that can be averaged, come to a report. -/
theorem ofVisits_ok {visits : List Visit}
    (h : ∀ visit ∈ visits, visit.outputs.length ≤ 1 ∧
      ∀ output ∈ visit.outputs, output.HasModestScore)
    (hcount : visits.length < 2 ^ 1023) : ∃ report, ofVisits visits = .ok report := by
  have hmodest : ∀ output ∈ visits.flatMap Visit.outputs, output.HasModestScore := by
    intro output houtput
    obtain ⟨visit, hvisit, houtput⟩ := List.mem_flatMap.1 houtput
    exact (h visit hvisit).2 output houtput
  have hbound := length_flatMap_outputs_le fun visit hvisit => (h visit hvisit).1
  obtain ⟨codebase, hcodebase⟩ := Codebase.ofOutputs_ok hmodest (lt_of_le_of_lt hbound hcount)
    (visits.filterMap Visit.failure?)
  unfold ofVisits
  simp only [bind, Except.bind, hcodebase]
  exact ⟨_, rfl⟩

/-- A scan fails with what prevents it, and comes to a report if nothing does. -/
theorem scan_of_isPreventedBy (h : settings.IsSound) {disk : Disk} (hdisk : disk.isPositioned)
    (hcount : disk.root.contents.length < 2 ^ 1023) (grammars : List String) (path : String) :
    (∀ fault, IsPreventedBy disk grammars path settings fault →
      scan disk grammars path (.table settings) = .error fault) ∧
    ((∀ fault, ¬ IsPreventedBy disk grammars path settings fault) →
      ∃ report, scan disk grammars path (.table settings) = .ok report) := by
  obtain ⟨patterns, hpatterns⟩ := Settings.exclusions_ok (Settings.isValid_of_isSound h)
  obtain ⟨files, hfiles, hlength⟩ := Discovery.testFiles_ok patterns hpatterns disk path
  obtain ⟨hfail, hyield⟩ := mapM_of_stops fun file (_ : file ∈ files) =>
    Visit.visitFile_of_isStoppedBy h hdisk grammars file
  unfold scan
  rw [visitAll_eq (Settings.isValid_of_isSound h) hfiles]
  constructor
  · rintro fault ⟨others, hothers, hfirst⟩
    obtain rfl := Except.ok.inj (hfiles.symm.trans hothers)
    rw [hfail fault hfirst]
    rfl
  · intro hgo
    obtain ⟨visits, hvisits, hsame, hregular⟩ :=
      hyield fun fault hfirst => hgo fault ⟨files, hfiles, hfirst⟩
    obtain ⟨report, hreport⟩ :=
      ofVisits_ok hregular (lt_of_le_of_lt (hsame.trans_le hlength) hcount)
    rw [hvisits]
    exact ⟨report, hreport⟩

end ScanReport

end FlakeLint
