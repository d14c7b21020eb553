-- SUMMARY: What score, grade and summary of a file tell about its issues.
import FlakeLint.Proofs.Passes.Issues
import FlakeLint.Proofs.Passes.Rating
import FlakeLint.Proofs.Text.Words
import FlakeLint.Proofs.Tree.Outline

/-!
# Assessments

A checker can assess a file in numbers, as the analysis does, or in exact fractions.
The exact score tells whether there are issues at all and limits how many there are;
the summary tells whether there are issues, too.
-/

namespace FlakeLint

-- ---------------------------------------------------------------------------
-- Assessing in any kind of quantity
-- ---------------------------------------------------------------------------

/-- What a checker concludes about a file, with a score of any kind. -/
structure Assessment (α : Type) where
  issues : List Issue
  score : α
  grade : Grade

namespace Checker

/-- The issues of a file and its rating by them. -/
def assess {α : Type} [Quantity α] (checker : Checker) (file : TestFile) :
    Except Fault (Assessment α) := do
  let issues ← checker.issues file
  let blocks ← checker.blocks file
  let score ← Checker.score issues blocks
  return ⟨issues, score, Score.grade score⟩

/-- The output that shows an assessment in numbers. -/
def report (checker : Checker) (path : String) (assessment : Assessment Number) :
    Except Fault Output := do
  return {
    checker := checker.key
    path
    issues := assessment.issues
    grade := assessment.grade
    score := some assessment.score
    summary :=
      ← checker.summary assessment.issues.length assessment.grade (some assessment.score) }

theorem analyze_eq_report (checker : Checker) (file : TestFile) :
    checker.analyze file = checker.assess file >>= checker.report file.path := by
  unfold analyze assess report
  simp only [bind_assoc, pure_bind]

variable {checker : Checker} {file : TestFile} {output : Output}

/-- A report repeats what it is about and has a summary of that. -/
theorem report_cases {path : String} {assessment : Assessment Number}
    (h : checker.report path assessment = .ok output) :
    output.issues = assessment.issues ∧ output.score = some assessment.score ∧
      output.grade = assessment.grade ∧
      checker.summary output.issues.length output.grade output.score = .ok output.summary := by
  obtain ⟨summary, hsummary, houtput⟩ := exists_eq_ok_of_bind h
  cases houtput
  exact ⟨rfl, rfl, rfl, hsummary⟩

/-- An assessment is about the issues of the file and rates it by them. -/
theorem assess_cases {α : Type} [Quantity α] {assessment : Assessment α}
    (h : checker.assess file = .ok assessment) :
    ∃ blocks, checker.issues file = .ok assessment.issues ∧ checker.blocks file = .ok blocks ∧
      Checker.score assessment.issues blocks = .ok assessment.score ∧
      assessment.grade = Score.grade assessment.score := by
  obtain ⟨issues, hissues, h⟩ := exists_eq_ok_of_bind h
  obtain ⟨blocks, hblocks, h⟩ := exists_eq_ok_of_bind h
  obtain ⟨score, hscore, h⟩ := exists_eq_ok_of_bind h
  cases h
  exact ⟨blocks, hissues, hblocks, hscore, rfl⟩

/-- In exact fractions, a file can be assessed if its issues and tests are found. -/
theorem assess_exact {issues : List Issue} {blocks : List TestBlock}
    (hissues : checker.issues file = .ok issues) (hblocks : checker.blocks file = .ok blocks) :
    (checker.assess file : Except Fault (Assessment ℚ)) =
      .ok ⟨issues, Score.shown (points issues blocks),
        Score.grade (Score.shown (points issues blocks))⟩ := by
  unfold assess
  rw [hissues, hblocks]
  simp only [bind, Except.bind, score_exact]
  rfl

-- ---------------------------------------------------------------------------
-- Exact scores
-- ---------------------------------------------------------------------------

/-- The exact score is full if there are no issues, and only then. -/
theorem shown_points_eq_hundred (issues : List Issue) (blocks : List TestBlock) :
    Score.shown (points issues blocks) = 100 ↔ issues = [] := by
  have hfull : Score.shown 100 = 100 := by
    have htenths := Score.shown_tenths 1000 le_rfl
    norm_num at htenths
    exact htenths
  constructor
  · intro hscore
    match issues with
    | [] => rfl
    | issue :: issues =>
      have hpoints := points_le (issue :: issues) blocks
      have hlength : (1 : ℚ) ≤ (issue :: issues).length := by
        rw [List.length_cons]
        exact_mod_cast Nat.succ_le_succ (Nat.zero_le _)
      have hless := Score.shown_lt (x := points (issue :: issues) blocks) (y := 100)
        (by linarith) le_rfl (by linarith)
      linarith
  · rintro rfl
    rw [points_nil, hfull]

theorem shown_points_le (issues : List Issue) (blocks : List TestBlock) :
    Score.shown (points issues blocks) ≤ max 0 (100 - 3 / 2 * (issues.length : ℚ)) := by
  rw [← Score.shown_hundred_sub]
  exact Score.shown_mono (points_le issues blocks)

-- ---------------------------------------------------------------------------
-- Summaries
-- ---------------------------------------------------------------------------

/-- Praise and criticism end differently. -/
theorem exists_endings (checker : Checker) : ∃ good bad : List Char,
    good.length = bad.length ∧ good ≠ bad ∧ good <:+ checker.praise.toList ∧
      ∀ issueCount, bad <:+ (checker.criticism issueCount).toList := by
  cases checker with
  | asyncReliability =>
    have hgood : "waits.".toList <:+ "instead of fixed waits.".toList := by decide +kernel
    have hbad : "teams.".toList <:+ "for both developers and QA teams.".toList := by
      decide +kernel
    refine ⟨"waits.".toList, "teams.".toList, by decide, by decide,
      Text.suffix_append_of hgood _, fun _ => ?_⟩
    unfold criticism
    refine List.IsSuffix.trans ?_ (Text.suffix_intercalate [_, _, _, _] _)
    exact Text.suffix_append_of hbad _
  | pageTimeouts =>
    have hgood : "eouts.".toList <:+ (praise .pageTimeouts).toList := by decide +kernel
    have hbad : "ready.".toList <:+
        "assertions, which retry until the page is ready.".toList := by decide +kernel
    exact ⟨"eouts.".toList, "ready.".toList, by decide, by decide, hgood,
      fun _ => Text.suffix_append_of hbad _⟩

/-- A summary ends in praise if there are no issues, and only then. -/
theorem praise_suffix_iff {issueCount : Nat} {grade : Grade} {score : Option Number}
    {summary : String} (h : checker.summary issueCount grade score = .ok summary) :
    checker.praise.toList <:+ summary.toList ↔ issueCount = 0 := by
  obtain ⟨scoreText, -, hsummary⟩ := exists_eq_ok_of_bind h
  have hsuffix (opinion : String) : opinion.toList <:+
      (String.intercalate "\n" [checker.rating grade scoreText, "", opinion]).toList :=
    Text.suffix_intercalate [_, _] _
  cases hsummary
  obtain ⟨good, bad, hlength, hne, hgood, hbad⟩ := exists_endings checker
  constructor
  · intro hpraise
    by_contra hcount
    rw [if_neg hcount] at hpraise
    have hends : bad <:+ _ := (hbad issueCount).trans (hsuffix _)
    have hboth := List.suffix_of_suffix_length_le (hgood.trans hpraise) hends hlength.le
    exact hne (hboth.eq_of_length hlength)
  · intro hcount
    rw [if_pos hcount]
    exact hsuffix _

end Checker

-- ---------------------------------------------------------------------------
-- Files with nothing to report
-- ---------------------------------------------------------------------------

/-- Does a file hold nothing that the checker looks at? For Cypress tests, these are waits, user actions,
calls of `then`, and functions that other code can call. -/
def Checker.isQuiet (file : TestFile) : Checker → Bool
  | .asyncReliability =>
    file.cursor.calls.all (fun call =>
      !call.node.isCallOf libraryObject "wait" &&
      (ActionSite.command? libraryObject call.node).isNone &&
      call.node.methodName? != some "then") &&
    file.cursor.walk.all fun place => !BrokenChain.isHelper place
  | .pageTimeouts =>
    file.cursor.calls.all fun call => !call.node.isCallOf FixedWait.pageObject "waitForTimeout"

section

variable {checker : Checker} {file : TestFile}

theorem TestFile.issuesOfCalls_eq_nil {issues : Cursor → Except Fault (List Issue)}
    (h : ∀ call ∈ file.cursor.calls, issues call = .ok []) : file.issuesOfCalls issues = .ok [] := by
  have hnone : (file.cursor.calls.map fun _ => ([] : List Issue)).flatten = [] := by simp
  unfold issuesOfCalls
  rw [mapM_eq_ok_map h]
  exact congrArg Except.ok hnone

theorem Checker.waitPass_eq_nil
    (h : ∀ call ∈ file.cursor.calls, call.node.isCallOf libraryObject "wait" = false) :
    waitPass file = .ok [] := by
  refine TestFile.issuesOfCalls_eq_nil fun call hcall => ?_
  unfold waitIssues
  rw [h call hcall, if_neg Bool.false_ne_true]

theorem ActionSite.find_eq_nil {parsed : Parsed} {object : String}
    (h : ∀ call ∈ parsed.cursor.calls, command? object call.node = none) :
    find parsed object = .ok [] := by
  have hnone : (parsed.cursor.calls.filterMap fun call =>
      (command? object call.node).map fun command => (call, command)) = [] := by
    rw [List.filterMap_eq_nil_iff]
    intro call hcall
    rw [h call hcall, Option.map_none]
  unfold find
  rw [hnone]
  rfl

theorem BrokenChain.issues_eq_nil
    (hthen : ∀ call ∈ file.cursor.calls, call.node.methodName? ≠ some "then")
    (hhelper : ∀ place ∈ file.cursor.walk, isHelper place = false) : issues file = [] := by
  unfold issues
  rw [List.map_eq_nil_iff, List.filterMap_eq_nil_iff]
  intro place hplace
  have hother : ¬ (place.kind = .call && place.node.methodName? == some "then") = true := by
    intro hcall
    obtain ⟨hkind, hname⟩ := Bool.and_eq_true_iff.1 hcall
    exact hthen place (List.mem_filter.2 ⟨hplace, hkind⟩) (beq_iff_eq.1 hname)
  unfold brokenAt?
  rw [if_neg hother, hhelper place hplace, Bool.false_and, if_neg Bool.false_ne_true]

theorem Checker.issues_eq_nil_of_isQuiet (h : checker.isQuiet file) {issues : List Issue}
    (hissues : checker.issues file = .ok issues) : issues = [] := by
  cases checker with
  | asyncReliability =>
    obtain ⟨hcalls, hplaces⟩ := Bool.and_eq_true_iff.1 h
    have hcall : ∀ call ∈ file.cursor.calls,
        call.node.isCallOf libraryObject "wait" = false ∧
        ActionSite.command? libraryObject call.node = none ∧
        call.node.methodName? ≠ some "then" := by
      intro call hcall
      simpa [and_assoc] using List.all_eq_true.1 hcalls call hcall
    have hplace : ∀ place ∈ file.cursor.walk, BrokenChain.isHelper place = false := by
      intro place hplace
      simpa using List.all_eq_true.1 hplaces place hplace
    have hwaits := waitPass_eq_nil fun call h => (hcall call h).1
    have hsites : ActionSite.find file.parsed libraryObject = .ok [] :=
      ActionSite.find_eq_nil fun call h => (hcall call h).2.1
    have hchains := BrokenChain.issues_eq_nil (fun call h => (hcall call h).2.2) hplace
    obtain ⟨lines, -, hissues⟩ := exists_eq_ok_of_bind hissues
    rw [hsites, hwaits, hchains] at hissues
    exact (Except.ok.inj hissues).symm
  | pageTimeouts =>
    have hnone : pageTimeouts.issues file = .ok [] := by
      refine TestFile.issuesOfCalls_eq_nil fun call hcall => ?_
      have hother := List.all_eq_true.1 h call hcall
      unfold FixedWait.playwrightIssues
      rw [if_pos hother]
      rfl
    exact (Except.ok.inj (hnone.symm.trans hissues)).symm

end

-- ---------------------------------------------------------------------------
-- What an analysis tells
-- ---------------------------------------------------------------------------

/-- Where the analysis of a file yields an output, the file has an exact assessment by the same issues.
Its score goes in tenths from 0 to 100, is 100 exactly if there are no issues, and leaves room for so
many issues only. Grades follow from scores, and a summary is positive exactly if there are no issues.
A file that holds nothing to look at has full score and the top grade. -/
theorem Checker.assess_of_analyze {checker : Checker} {file : TestFile} {output : Output}
    (h : checker.analyze file = .ok output) :
    ∃ assessment : Assessment ℚ,
      checker.assess file = .ok assessment ∧
      assessment.issues = output.issues ∧
      (∃ tenths : Nat, tenths ≤ 1000 ∧ assessment.score = tenths / 10) ∧
      (assessment.score = 100 ↔ output.issues = []) ∧
      assessment.score ≤ max 0 (100 - 3 / 2 * (output.issues.length : ℚ)) ∧
      assessment.grade = Score.grade assessment.score ∧
      (∃ score, output.score = some score ∧ output.grade = Score.grade score) ∧
      (checker.praise.toList <:+ output.summary.toList ↔ output.issues = []) ∧
      (checker.isQuiet file → assessment.score = 100 ∧ assessment.grade = .excellent) := by
  rw [analyze_eq_report] at h
  obtain ⟨inNumbers, hassess, hreport⟩ := exists_eq_ok_of_bind h
  obtain ⟨hissues, hscore, hgrade, hsummary⟩ := report_cases hreport
  obtain ⟨blocks, hfound, hblocks, -, hrated⟩ := assess_cases hassess
  rw [← hissues] at hfound
  have hfull := shown_points_eq_hundred output.issues blocks
  refine ⟨_, assess_exact hfound hblocks, rfl, Score.shown_eq_tenths _, hfull,
    shown_points_le _ _, rfl, ⟨inNumbers.score, hscore, hgrade.trans hrated⟩, ?_, ?_⟩
  · rw [praise_suffix_iff hsummary, List.length_eq_zero_iff]
  · intro hquiet
    have hhundred := hfull.2 (issues_eq_nil_of_isQuiet hquiet hfound)
    refine ⟨hhundred, ?_⟩
    dsimp only
    rw [hhundred]
    decide +kernel

namespace Sample

/-- A line for the log, which no pass looks at. -/
def logging : TestFile :=
  .ofOutline "a.cy.js" "cy.log('a')" defaultGrammar <|
    piece (.other "program") none 0 11 [
      methodCall none 0 3 6 11 (piece .identifier (some .object) 0 2 [])
        [piece .string none 7 10 []]]

def waiting : TestFile :=
  .ofOutline "a.cy.js" (source "1000") defaultGrammar (outline 4)

end Sample

/-- The log line has full score and praise; the fixed wait has neither. -/
theorem Checker.assess_of_analyze_samples :
    (asyncReliability.isQuiet Sample.logging ∧
      ∃ (output : Output) (assessment : Assessment ℚ),
        asyncReliability.analyze Sample.logging = .ok output ∧
        asyncReliability.assess Sample.logging = .ok assessment ∧
        assessment.score = 100 ∧ assessment.grade = .excellent ∧
        asyncReliability.praise.toList <:+ output.summary.toList) ∧
    ∃ (output : Output) (assessment : Assessment ℚ),
      asyncReliability.analyze Sample.waiting = .ok output ∧ output.issues.length = 1 ∧
      asyncReliability.assess Sample.waiting = .ok assessment ∧
      assessment.score ≤ 197 / 2 ∧
      ¬ asyncReliability.praise.toList <:+ output.summary.toList := by
  have hquiet : asyncReliability.isQuiet Sample.logging := by decide +kernel
  obtain ⟨output, houtput, hnone⟩ := exists_eq_ok_of_map_toOption
    (show (asyncReliability.analyze Sample.logging).toOption.map (fun output => output.issues) =
      some [] by decide +kernel)
  obtain ⟨waiting, hwaiting, hone⟩ := exists_eq_ok_of_map_toOption
    (show (asyncReliability.analyze Sample.waiting).toOption.map
      (fun output => output.issues.length) = some 1 by decide +kernel)
  obtain ⟨full, hfull, -, -, -, -, -, -, hpraised, hclear⟩ := assess_of_analyze houtput
  obtain ⟨less, hless, -, -, -, hbound, -, -, hcriticised, -⟩ := assess_of_analyze hwaiting
  obtain ⟨hscore, hgrade⟩ := hclear hquiet
  refine ⟨⟨hquiet, output, full, houtput, hfull, hscore, hgrade, hpraised.2 hnone⟩,
    waiting, less, hwaiting, hone, hless, ?_, ?_⟩
  · rw [hone] at hbound
    norm_num at hbound
    exact hbound
  · intro hpraise
    rw [hcriticised.1 hpraise] at hone
    cases hone

end FlakeLint
