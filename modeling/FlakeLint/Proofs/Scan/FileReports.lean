-- SUMMARY: What is said about a single file of a scan, as a relation, and that its visit says just that.
import FlakeLint.Proofs.Passes.Faults
import FlakeLint.Proofs.Scan.Outcome

/-!
# Reports of files

A file fails, is skipped or is checked. Which of them it is, and what is said about
it then, follows from the file and the settings alone; the visit of the file comes to
nothing else.
-/

namespace FlakeLint

-- ---------------------------------------------------------------------------
-- Reports
-- ---------------------------------------------------------------------------

/-- What a scan says about one file. -/
structure FileReport where
  outputs : List Output
  failures : List Failure
  skipped : List String
deriving Inhabited

def Visit.report (visit : Visit) : FileReport where
  outputs := visit.outputs
  failures := visit.failure?.toList
  skipped := if visit.isSkipped then [visit.shownPath] else []

/-- The fault is a source that does not parse. -/
def Fault.IsParse (fault : Fault) : Prop :=
  ∃ failure, fault = .parse failure

namespace FileReport

/-- What is said about a source: it is skipped, and never parsed, where no checker is on; it fails
where it does not parse; and otherwise the outputs of all checkers that are on are handed over. -/
inductive OfSource (parsers : Parsers) (settings : Settings) (path content : String) :
    FileReport → Prop
  | skipped (hnone : settings.checkersFor (Framework.detect? path content) = [])
      (hanalysis : ∀ others : Parsers, Analysis.ofSource others path content (.table settings) =
        .ok (.skipped (Framework.detect? path content))) :
      OfSource parsers settings path content ⟨[], [], [path]⟩
  | malformed {failure : ParseFailure}
      (hsome : settings.checkersFor (Framework.detect? path content) ≠ [])
      (hparse : parsers.parse path content none = .error (.parse failure))
      (hanalysis : Analysis.ofSource parsers path content (.table settings) =
        .error (.parse failure)) :
      OfSource parsers settings path content ⟨[], [⟨path, failure.message⟩], []⟩
  | checked {result : ParseResult} {outputs : List (Checker × Output)}
      (hsome : settings.checkersFor (Framework.detect? path content) ≠ [])
      (hparse : parsers.parse path content none = .ok result)
      (hanalysis : Analysis.ofSource parsers path content (.table settings) =
        .ok (.checked result outputs))
      (hcheckers : outputs.map Prod.fst = settings.checkersFor (Framework.detect? path content))
      (houtputs : ∀ pair ∈ outputs,
        pair.1.analyze (.ofContent path content result.parsed) = .ok pair.2) :
      OfSource parsers settings path content ⟨outputs.map Prod.snd, [], []⟩

/-- What is said about a file whose path can be shown: it fails where it cannot be read, and otherwise
it is its source that something is said about. -/
inductive OfFile (disk : Disk) (grammars : List String) (settings : Settings) (path : String) :
    FileReport → Prop
  | unreadable {shownPath : String} {cause : ReadCause} (hshown : disk.shown path = .ok shownPath)
      (hread : disk.read path = .error cause) :
      OfFile disk grammars settings path
        ⟨[], [⟨shownPath, s!"could not read file: {cause.message}"⟩], []⟩
  | readable {shownPath : String} {file : File} {text : List Char} {report : FileReport}
      (hshown : disk.shown path = .ok shownPath) (hread : disk.read path = .ok (file, text))
      (hsource : OfSource ⟨grammars, file.outlines⟩ settings shownPath (String.ofList text)
        report) :
      OfFile disk grammars settings path report

variable {disk : Disk} {grammars : List String} {settings : Settings} {parsers : Parsers}
  {path content : String} {report other : FileReport}

/-- An analysis that can be stopped by a parse failure only comes to a report. -/
theorem exists_ofSource (hvalid : settings.IsValid)
    (honly : FailsOnly Fault.IsParse (Analysis.ofSource parsers path content (.table settings))) :
    ∃ report, OfSource parsers settings path content report := by
  have hrunning := Settings.running_eq hvalid (Framework.detect? path content)
  by_cases hsome : settings.checkersFor (Framework.detect? path content) = []
  · rw [hsome] at hrunning
    exact ⟨_, .skipped hsome (Analysis.ofSource_eq_skipped hrunning)⟩
  · have hsource : Analysis.ofSource parsers path content (.table settings) = _ :=
      Analysis.ofSource_eq hrunning hsome
    cases hparse : parsers.parse path content none with
    | error fault =>
      rw [hparse] at hsource
      obtain ⟨failure, rfl⟩ := honly fault hsource
      exact ⟨_, .malformed hsome hparse hsource⟩
    | ok result =>
      rw [hparse] at hsource
      dsimp only [Except.bind] at hsource
      cases hpairs : (settings.checkersFor (Framework.detect? path content)).mapM fun checker =>
          do return (checker, ← checker.analyze (.ofContent path content result.parsed)) with
      -- What stops a checker is never a parse failure.
      | error fault =>
        rw [hpairs] at hsource
        obtain ⟨failure, rfl⟩ := honly fault hsource
        exact (Checker.analyzeAll_fails _ _ _ hpairs).elim
      | ok pairs =>
        rw [hpairs] at hsource
        obtain ⟨hcheckers, houtputs⟩ := mapM_paired hpairs
        exact ⟨_, .checked hsome hparse hsource hcheckers houtputs⟩

/-- The visit of a file says what is said about the file. -/
theorem OfFile.exists_visit (h : OfFile disk grammars settings path report) :
    ∃ visit, visitFile disk grammars (.table settings) path = .ok visit ∧
      visit.report = report := by
  unfold visitFile
  cases h with
  | unreadable hshown hread =>
    rw [hshown, hread]
    exact ⟨_, rfl, rfl⟩
  | readable hshown hread hsource =>
    rw [hshown, hread]
    simp only [bind, Except.bind]
    cases hsource with
    | skipped hnone hanalysis =>
      rw [hanalysis]
      exact ⟨_, rfl, rfl⟩
    | malformed hsome hparse hanalysis =>
      rw [hanalysis]
      exact ⟨_, rfl, rfl⟩
    | checked hsome hparse hanalysis hcheckers houtputs =>
      rw [hanalysis]
      exact ⟨_, rfl, rfl⟩

/-- No file has two reports. -/
theorem OfFile.unique (h : OfFile disk grammars settings path report)
    (hother : OfFile disk grammars settings path other) : other = report := by
  obtain ⟨visit, hvisit, rfl⟩ := h.exists_visit
  obtain ⟨again, hagain, rfl⟩ := hother.exists_visit
  obtain rfl := Except.ok.inj (hvisit.symm.trans hagain)
  rfl

/-- No file has more than one output, and all outputs have scores that can be averaged. -/
theorem OfFile.outputs_regular (h : OfFile disk grammars settings path report) :
    report.outputs.length ≤ 1 ∧ ∀ output ∈ report.outputs, output.HasModestScore := by
  cases h with
  | unreadable hshown hread => simp
  | readable hshown hread hsource =>
    cases hsource with
    | skipped hnone hanalysis => simp
    | malformed hsome hparse hanalysis => simp
    | checked hsome hparse hanalysis hcheckers houtputs =>
      refine ⟨?_, fun output houtput => ?_⟩
      · have hlength := congrArg List.length hcheckers
        rw [List.length_map] at hlength
        rw [List.length_map, hlength]
        exact settings.length_checkersFor_le _
      · obtain ⟨pair, hpair, rfl⟩ := List.mem_map.1 houtput
        exact Checker.hasModestScore_of_analyze _ (houtputs pair hpair)

/-- The report of a file follows from the file and from how its path is shown. -/
theorem OfFile.of_read_eq {changed : Disk} (h : OfFile changed grammars settings path report)
    (hshown : changed.shown path = disk.shown path) (hread : changed.read path = disk.read path) :
    OfFile disk grammars settings path report := by
  cases h with
  | unreadable hpath hcause => exact .unreadable (hshown ▸ hpath) (hread ▸ hcause)
  | readable hpath hfile hsource => exact .readable (hshown ▸ hpath) (hread ▸ hfile) hsource

end FileReport

end FlakeLint
