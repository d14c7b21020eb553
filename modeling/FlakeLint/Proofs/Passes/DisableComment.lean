-- SUMMARY: The comment that switches off the report of fixed waits on a line changes nothing else.
import FlakeLint.Proofs.Number.Score
import FlakeLint.Proofs.Passes.Issues
import FlakeLint.Proofs.Text.Lines
import FlakeLint.Proofs.Text.Words
import FlakeLint.Proofs.Tree.Outline

/-!
# The disabling comment

The text of a line is consulted for excuses of fixed waits, for setup code around
actions, and as the context of issues. A disabling comment at the end of a line is an
excuse there, is no mark of setup code, and leaves every other line as it is. So it
takes away the fixed waits on its line, and shows in the context of other issues
there.
-/

namespace FlakeLint

/-! ## The comment -/

/-- The comment that lets the fixed waits on a line pass. -/
def Wait.disableComment : String := " // testcopilot-disable"

theorem Wait.ne_newline_of_mem_disableComment : ∀ c ∈ disableComment.toList, c ≠ '\n' := by
  have hall : disableComment.toList.all (· != '\n') := by decide
  intro c hc
  exact bne_iff_ne.1 (List.all_eq_true.1 hall c hc)

theorem Wait.isExempt_append_disableComment (text : String) (delay : Number) :
    isExempt (text ++ disableComment) delay := by
  have hsuffix : "// testcopilot-disable".toList <:+ (text ++ disableComment).toList := by
    rw [String.toList_append]
    exact (List.suffix_cons ' ' _).trans (List.suffix_append _ _)
  unfold isExempt commentMentions
  rw [Text.occurs_of_suffix hsuffix (by decide), Bool.true_or]

/-- No mark of setup code stands in the comment or is completed by it. -/
theorem Setup.isMarked_append_disableComment (text : String) :
    isMarked (text ++ Wait.disableComment) = isMarked text := by
  have hmeets : ∀ marker ∈ markers,
      Text.meets marker.toList (Text.lower Wait.disableComment).toList = false := by decide
  unfold isMarked Text.contains
  rw [Text.toList_lower_append, Bool.eq_iff_iff, List.any_eq_true, List.any_eq_true]
  refine exists_congr fun marker => and_congr_right fun hmarker => ?_
  rw [Text.containsChars_append (hmeets marker hmarker)]

/-! ## A line that reads differently -/

section

variable {lines : List String} {i : Nat} {text : String}

theorem lineAt?_modify (lines : List String) (i : Nat) (f : String → String) (line : Int) :
    lineAt? (lines.modify i f) line =
      (lineAt? lines line).map fun text => if line = (i + 1 : Nat) then f text else text := by
  unfold lineAt?
  split
  · next hline =>
    have hsame : i = (line - 1).toNat ↔ line = (i + 1 : Nat) := by omega
    rw [List.getElem?_modify]
    simp only [hsame]
    rfl
  · rfl

theorem lineText_modify_self (hi : lines[i]? = some text) (f : String → String) :
    lineText (lines.modify i f) (i + 1 : Nat) = f text := by
  unfold lineText
  rw [lineAt?_modify, lineAt?_succ, hi, Option.map_some, if_pos rfl, Option.getD_some]

theorem lineText_modify_of_ne (lines : List String) {line : Int} (h : line ≠ (i + 1 : Nat))
    (f : String → String) : lineText (lines.modify i f) line = lineText lines line := by
  unfold lineText
  rw [lineAt?_modify]
  simp only [if_neg h, Option.map_id_fun', id]

theorem Slice.between_map {α β : Type} (f : α → β) (items : List α) (start stop : Int) :
    between (items.map f) start stop = (between items start stop).map f := by
  unfold between before
  rw [List.length_map, List.map_drop, List.map_take]

/-- Setup code is found as before where a line changes that is marked as it was. -/
theorem Setup.any_window_modify {f : String → String} (hf : ∀ text, isMarked (f text) = isMarked text)
    (lines : List String) (i : Nat) (line : Int) :
    (window (lines.modify i f) line).any isMarked = (window lines line).any isMarked := by
  have hmarks : (lines.modify i f).map isMarked = lines.map isMarked := by
    refine List.ext_getElem? fun j => ?_
    rw [List.getElem?_map, List.getElem?_map, List.getElem?_modify]
    cases lines[j]? with
    | none => rfl
    | some text =>
      dsimp only [Option.map_eq_map, Option.map_some]
      split
      · rw [hf]
      · rfl
  have hany (lines : List String) (start stop : Int) :
      (Slice.between lines start stop).any isMarked =
        (Slice.between (lines.map isMarked) start stop).any id := by
    rw [Slice.between_map, List.any_map, Function.id_comp]
  unfold window
  rw [hany, hany lines, hmarks, List.length_modify]

end

namespace Issue

/-- How the messages of fixed waits begin, and no others do. -/
def fixedWaitOpenings : List String :=
  ["Hardcoded delay of ", "page.waitForTimeout("]

def isFixedWait (issue : Issue) : Bool :=
  fixedWaitOpenings.any (Text.startsWith issue.message)

/-- The issue as it is shown where a line reads `text`. -/
def reread (line : Int) (text : String) (issue : Issue) : Issue :=
  if issue.line = some line then { issue with context := some (Text.trim text) } else issue

/-- What is left of some issues where a line reads `text` and lets its fixed waits pass. -/
def remaining (line : Int) (text : String) (issues : List Issue) : List Issue :=
  (issues.filter fun issue => !(issue.isFixedWait && issue.line == some line)).map
    (reread line text)

variable {line : Int} {text : String}

theorem remaining_append (issues others : List Issue) :
    remaining line text (issues ++ others) =
      remaining line text issues ++ remaining line text others := by
  unfold remaining
  rw [List.filter_append, List.map_append]

theorem remaining_flatMap {α : Type} (xs : List α) (issues : α → List Issue) :
    remaining line text (xs.flatMap issues) =
      xs.flatMap fun x => remaining line text (issues x) := by
  unfold remaining
  rw [List.filter_flatMap, List.map_flatMap]

theorem remaining_eq_map {issues : List Issue} (h : ∀ issue ∈ issues, issue.isFixedWait = false) :
    remaining line text issues = issues.map (reread line text) := by
  unfold remaining
  rw [List.filter_eq_self.2 fun issue hissue => by rw [h issue hissue]; rfl]

theorem remaining_of_isFixedWait {issue : Issue} (h : issue.isFixedWait)
    (hline : issue.line = some line) : remaining line text [issue] = [] := by
  simp [remaining, h, hline]

theorem remaining_of_line_ne {issue : Issue} (h : issue.line ≠ some line) :
    remaining line text [issue] = [issue.reread line text] := by
  simp [remaining, h]

theorem isFixedWait_eq_false {issue : Issue} {first : String}
    (h : Text.startsWith issue.message first)
    (hfirst : ∀ opening ∈ fixedWaitOpenings,
      Text.startsWith first opening = false ∧ Text.startsWith opening first = false) :
    issue.isFixedWait = false := by
  refine List.any_eq_false.2 fun opening hopening => ?_
  rw [Text.startsWith_eq_false h (hfirst opening hopening).1 (hfirst opening hopening).2]
  exact Bool.false_ne_true

end Issue

theorem Finding.issue_modify {lines : List String} {i : Nat} {text : String}
    (hi : lines[i]? = some text) (f : String → String) (finding : Finding)
    (place : Option Location) :
    finding.issue (lines.modify i f) place =
      (finding.issue lines place).reread (i + 1 : Nat) (f text) := by
  have hline : lineAt? lines (i + 1 : Nat) = some text := (lineAt?_succ lines i).trans hi
  unfold issue issueShowing contextAt? Issue.reread Issue.line
  simp only [lineAt?_modify]
  generalize ((i + 1 : Nat) : Int) = line at hline ⊢
  cases place with
  | none => rfl
  | some location =>
    by_cases hsame : location.line = line
    · simp [Option.filter, hsame, hline]
    · cases hother : lineAt? lines location.line <;> simp [Option.filter, hsame, hother]

/-! ## Which findings are fixed waits -/

section

variable (lines : List String) (place : Option Location)

theorem FixedWait.isFixedWait_cypressFinding (delay : String) (explained : Bool) :
    ((cypressFinding delay explained).issue lines place).isFixedWait := by
  have hopening : Text.startsWith (cypressFinding delay explained).message
      "Hardcoded delay of " := by
    unfold cypressFinding
    dsimp only [toString]
    exact Text.startsWith_append_of (Text.startsWith_append _ _) _
  exact List.any_eq_true.2 ⟨_, List.mem_cons_self, hopening⟩

theorem FixedWait.isFixedWait_playwrightFinding (delay : String) (explained : Bool) :
    ((playwrightFinding delay explained).issue lines place).isFixedWait := by
  have hopening : Text.startsWith (playwrightFinding delay explained).message
      "page.waitForTimeout(" := by
    unfold playwrightFinding
    dsimp only [toString]
    iterate 4 apply Text.startsWith_append_of
    exact Text.startsWith_append _ _
  exact List.any_eq_true.2 ⟨_, List.mem_cons_of_mem _ List.mem_cons_self, hopening⟩

theorem Checker.isFixedWait_delayFinding (delay : String) (explained : Bool) (checker : Checker) :
    ((checker.delayFinding delay explained).issue lines place).isFixedWait := by
  cases checker with
  | asyncReliability => exact FixedWait.isFixedWait_cypressFinding lines place delay explained
  | pageTimeouts => exact FixedWait.isFixedWait_playwrightFinding lines place delay explained

theorem AliasWait.isFixedWait_findings {file : TestFile} {declared : List String} {call : Cursor}
    {waited : String} {finding : Finding} (h : finding ∈ findings file declared call waited) :
    (finding.issue lines place).isFixedWait = false := by
  have hopening : Text.startsWith finding.message "cy.wait('" := by
    unfold findings at h
    split at h
    · rw [List.mem_singleton.1 h]
      unfold undeclaredFinding
      dsimp only [toString]
      iterate 2 apply Text.startsWith_append_of
      exact Text.startsWith_append _ _
    · split at h
      · cases h
      · rw [List.mem_singleton.1 h]
        unfold declaredFinding
        dsimp only [toString]
        iterate 2 apply Text.startsWith_append_of
        exact Text.startsWith_append _ _
  exact Issue.isFixedWait_eq_false hopening (by decide)

theorem UnverifiedAction.isFixedWait_finding (command : String) :
    ((finding command).issue lines place).isFixedWait = false := by
  have hopening : Text.startsWith (finding command).message "User action \"cy." := by
    unfold finding
    dsimp only [toString]
    apply Text.startsWith_append_of
    exact Text.startsWith_append _ _
  exact Issue.isFixedWait_eq_false hopening (by decide)

theorem BrokenChain.isFixedWait_brokenAt? {at_ : Cursor} {finding : Finding} {function : Node}
    (h : brokenAt? at_ = some (finding, function)) :
    (finding.issue lines place).isFixedWait = false := by
  unfold brokenAt? at h
  split at h
  · obtain ⟨callback, -, heq⟩ := Option.map_eq_some_iff.1 h
    cases heq
    have hopening : Text.startsWith callbackFinding.message
        "Callback in .then() contains Cypress commands but doesn't return — this " :=
      Text.startsWith_append _ _
    exact Issue.isFixedWait_eq_false hopening (by decide)
  · split at h
    · cases h
      have hopening : Text.startsWith (helperFinding (reportedName at_)).message "Function \"" := by
        unfold helperFinding
        dsimp only [toString]
        iterate 2 apply Text.startsWith_append_of
        exact Text.startsWith_append _ _
      exact Issue.isFixedWait_eq_false hopening (by decide)
    · cases h

end

/-! ## The file with the comment -/

/-- The same file with the comment at the end of one of its lines, counted from 0. -/
def TestFile.disabledAt (file : TestFile) (i : Nat) : TestFile :=
  { file with lines := file.lines.modify i (· ++ Wait.disableComment) }

section

variable {file : TestFile} {i : Nat} {text : String} {call : Cursor}

theorem TestFile.issueAt_disabledAt (hi : file.lines[i]? = some text) (finding : Finding)
    (n : Node) :
    (file.disabledAt i).issueAt finding n =
      (file.issueAt finding n).reread (i + 1 : Nat) (text ++ Wait.disableComment) :=
  Finding.issue_modify hi _ finding _

theorem TestFile.line_issueAt {n : Node} (h : n.isPositioned) (finding : Finding) :
    (file.issueAt finding n).line =
      if (lineAt? file.lines n.line).isSome then some (n.line : Int) else none := by
  have hline : (file.parsed.spanning n n).line = n.line := rfl
  unfold issueAt Finding.issue Finding.issueShowing Issue.line
  rw [Parsed.place?_eq_some h]
  simp only [Option.filter, hline]
  split
  · rfl
  · rfl

namespace Checker

/-- With the comment, the fixed waits on the line are reported no more, and the others as before. -/
theorem reportsDelay_disabledAt (hi : file.lines[i]? = some text) (call : Cursor) (delay : Number)
    (checker : Checker) :
    checker.reportsDelay (file.disabledAt i) call delay =
      (checker.reportsDelay file call delay && call.node.line != i + 1) := by
  by_cases hline : call.node.line = i + 1
  · have htext : lineText (file.disabledAt i).lines call.node.line =
        text ++ Wait.disableComment := by
      rw [hline]
      exact lineText_modify_self hi _
    have hsame : (call.node.line != i + 1) = false := bne_eq_false_iff_eq.2 hline
    rw [hsame, Bool.and_false]
    cases checker <;> simp [reportsDelay, htext, Wait.isExempt_append_disableComment]
  · have htext : lineText (file.disabledAt i).lines call.node.line =
        lineText file.lines call.node.line :=
      lineText_modify_of_ne file.lines (by omega) _
    have hother : (call.node.line != i + 1) = true := bne_iff_ne.2 hline
    rw [hother, Bool.and_true]
    cases checker <;> simp [reportsDelay, htext]

theorem delayIssues_disabledAt (hi : file.lines[i]? = some text) (h : call.node.isPositioned)
    (delay : Number) (checker : Checker) :
    delayIssues (file.disabledAt i) call delay checker =
      Issue.remaining (i + 1 : Nat) (text ++ Wait.disableComment)
        (delayIssues file call delay checker) := by
  unfold delayIssues
  rw [reportsDelay_disabledAt hi]
  cases checker.reportsDelay file call delay with
  | false => rfl
  | true =>
    rw [Bool.true_and, if_pos rfl]
    by_cases hline : call.node.line = i + 1
    · have htext : lineAt? file.lines call.node.line = some text := by
        rw [hline]
        exact (lineAt?_succ file.lines i).trans hi
      rw [if_neg (by simpa using hline), Issue.remaining_of_isFixedWait]
      · exact isFixedWait_delayFinding ..
      · rw [TestFile.line_issueAt h, htext, hline]
        rfl
    · have htext : lineText (file.disabledAt i).lines call.node.line =
          lineText file.lines call.node.line :=
        lineText_modify_of_ne file.lines (by omega) _
      rw [if_pos (bne_iff_ne.2 hline), htext, TestFile.issueAt_disabledAt hi,
        Issue.remaining_of_line_ne]
      rw [TestFile.line_issueAt h]
      split
      · simp only [ne_eq, Option.some_inj]
        omega
      · exact (Option.some_ne_none _).symm

theorem waitsAt_disabledAt (hi : file.lines[i]? = some text) (h : call.node.isPositioned)
    (declared : List String) :
    waitsAt (file.disabledAt i) declared call =
      Issue.remaining (i + 1 : Nat) (text ++ Wait.disableComment) (waitsAt file declared call) := by
  unfold waitsAt
  cases asyncReliability.delay? call.node with
  | some delay => exact delayIssues_disabledAt hi h delay asyncReliability
  | none =>
    cases Wait.alias? libraryObject call.node with
    | none => rfl
    | some waited =>
      have hfindings : AliasWait.findings (file.disabledAt i) declared call waited =
          AliasWait.findings file declared call waited := rfl
      rw [Option.map_some, Option.map_some, Option.getD_some, Option.getD_some, hfindings,
        Issue.remaining_eq_map, List.map_map]
      · exact List.map_congr_left fun finding _ => TestFile.issueAt_disabledAt hi finding _
      · intro issue hissue
        obtain ⟨finding, hfinding, rfl⟩ := List.mem_map.1 hissue
        exact AliasWait.isFixedWait_findings _ _ hfinding

theorem timeoutsAt_disabledAt (hi : file.lines[i]? = some text) (h : call.node.isPositioned) :
    timeoutsAt (file.disabledAt i) call =
      Issue.remaining (i + 1 : Nat) (text ++ Wait.disableComment) (timeoutsAt file call) := by
  unfold timeoutsAt
  cases pageTimeouts.delay? call.node with
  | none => rfl
  | some delay => exact delayIssues_disabledAt hi h delay pageTimeouts

end Checker

theorem UnverifiedAction.found_disabledAt (hi : file.lines[i]? = some text) :
    found (file.disabledAt i) =
      Issue.remaining (i + 1 : Nat) (text ++ Wait.disableComment) (found file) := by
  have hsettled (site : ActionSite) : isSettled (file.disabledAt i) site = isSettled file site := by
    have hsetup := Setup.any_window_modify Setup.isMarked_append_disableComment file.lines i site.line
    unfold isSettled Setup.excuses
    rw [TestFile.disabledAt, hsetup]
    rfl
  rw [Issue.remaining_eq_map]
  · unfold found
    simp only [hsettled]
    rw [List.map_map]
    exact List.map_congr_left fun site _ => Finding.issue_modify hi _ _ _
  · intro issue hissue
    obtain ⟨site, -, rfl⟩ := List.mem_map.1 hissue
    exact isFixedWait_finding _ _ _

theorem BrokenChain.issues_disabledAt (hi : file.lines[i]? = some text) :
    issues (file.disabledAt i) =
      Issue.remaining (i + 1 : Nat) (text ++ Wait.disableComment) (issues file) := by
  rw [Issue.remaining_eq_map]
  · unfold issues
    rw [List.map_map]
    exact List.map_congr_left fun found _ => TestFile.issueAt_disabledAt hi found.1 found.2
  · intro issue hissue
    obtain ⟨found, hfound, rfl⟩ := List.mem_map.1 hissue
    obtain ⟨place, -, hbroken⟩ := List.mem_filterMap.1 hfound
    exact isFixedWait_brokenAt? _ _ hbroken

namespace Checker

theorem found_disabledAt (hi : file.lines[i]? = some text) (h : file.parsed.root.isPositioned)
    (checker : Checker) :
    checker.found (file.disabledAt i) =
      Issue.remaining (i + 1 : Nat) (text ++ Wait.disableComment) (checker.found file) := by
  cases checker with
  | asyncReliability =>
    unfold found waitsFound
    dsimp only
    rw [Issue.remaining_append, Issue.remaining_append, Issue.remaining_flatMap,
      UnverifiedAction.found_disabledAt hi, BrokenChain.issues_disabledAt hi]
    congr 2
    exact List.flatMap_congr fun call hcall =>
      waitsAt_disabledAt hi (Cursor.isPositioned_of_mem_calls h hcall) _
  | pageTimeouts =>
    unfold found
    dsimp only
    rw [Issue.remaining_flatMap]
    exact List.flatMap_congr fun call hcall =>
      timeoutsAt_disabledAt hi (Cursor.isPositioned_of_mem_calls h hcall)

/-- What stops the analysis with the comment stops it without. -/
theorem isStopped_of_disabledAt (hi : file.lines[i]? = some text) {checker : Checker}
    (h : checker.isStopped (file.disabledAt i)) : checker.isStopped file := by
  obtain ⟨call, hcall, hunwritable⟩ := List.any_eq_true.1 h
  refine List.any_eq_true.2 ⟨call, hcall, ?_⟩
  unfold isUnwritable at hunwritable ⊢
  obtain ⟨delay, hdelay, hlong⟩ := (Option.any_eq_true _ _).1 hunwritable
  rw [reportsDelay_disabledAt hi] at hlong
  refine (Option.any_eq_true _ _).2 ⟨delay, hdelay, ?_⟩
  simp only [Bool.and_eq_true] at hlong ⊢
  exact ⟨hlong.1.1, hlong.2⟩

/-- Nothing stops the analysis that did not stop it without the comment. -/
theorem analyze_disabledAt (hi : file.lines[i]? = some text) (h : file.parsed.root.isPositioned)
    (checker : Checker) :
    (∀ output, checker.analyze file = .ok output →
      ∃ output', checker.analyze (file.disabledAt i) = .ok output' ∧
        output'.issues =
          Issue.remaining (i + 1 : Nat) (text ++ Wait.disableComment) output.issues) ∧
    ∀ fault, checker.analyze (file.disabledAt i) = .error fault →
      checker.analyze file = .error fault := by
  have hdisabled : (file.disabledAt i).parsed.root.isPositioned := h
  rw [analyze_eq h, analyze_eq hdisabled]
  obtain ⟨output', houtput', -⟩ := rated_ok checker (file.disabledAt i).path
    (checker.found (file.disabledAt i)) (checker.blocksFound (file.disabledAt i))
  constructor
  · intro output houtput
    split at houtput
    · cases houtput
    · next hrunning =>
      have hgoes : ¬ checker.isStopped (file.disabledAt i) := fun hstopped =>
        hrunning (isStopped_of_disabledAt hi hstopped)
      refine ⟨output', ?_, ?_⟩
      · rw [if_neg hgoes, houtput']
      · rw [issues_of_rated houtput', issues_of_rated houtput, found_disabledAt hi h]
  · intro fault hfault
    split at hfault
    · next hstopped =>
      rw [if_pos (isStopped_of_disabledAt hi hstopped)]
      exact hfault
    · rw [houtput'] at hfault
      cases hfault

end Checker

end

/-! ## Sources with the comment -/

theorem TestFile.ofContent_lengthened (path content : String) (parsed : Parsed) (i : Nat) :
    ofContent path (Text.lengthened (i + 1) Wait.disableComment content) parsed =
      (ofContent path content parsed).disabledAt i := by
  have hlines := Text.sourceLines_lengthened (i + 1) Wait.ne_newline_of_mem_disableComment content
  unfold disabledAt ofContent
  rw [hlines, Nat.add_sub_cancel]

/-- A source whose line gets the comment has the issues that it had, without the fixed waits on the line
and with the comment in the context of other issues there. Nothing stops the analysis that did not
stop it before. -/
theorem Checker.analyze_disabled {content text : String} {parsed : Parsed} {line : Nat}
    (h : parsed.root.isPositioned) (hline : lineAt? (Text.sourceLines content) line = some text)
    (path : String) (checker : Checker) :
    let file := TestFile.ofContent path content parsed
    let other := TestFile.ofContent path (Text.lengthened line Wait.disableComment content) parsed
    (∀ output, checker.analyze file = .ok output →
      ∃ output', checker.analyze other = .ok output' ∧
        output'.issues = (output.issues.filter fun issue =>
          !(issue.isFixedWait && issue.line == some (line : Int))).map
            (Issue.reread line (text ++ Wait.disableComment))) ∧
    ∀ fault, checker.analyze other = .error fault → checker.analyze file = .error fault := by
  intro file other
  obtain ⟨i, rfl⟩ : ∃ i, line = i + 1 := by
    unfold lineAt? at hline
    split at hline
    · exact Nat.exists_eq_add_of_le' (by omega)
    · cases hline
  have hi : file.lines[i]? = some text := (lineAt?_succ _ i).symm.trans hline
  have hother : other = file.disabledAt i := TestFile.ofContent_lengthened path content parsed i
  rw [hother]
  exact analyze_disabledAt hi h checker

namespace Sample

/-- A fixed wait and an alias wait on the first line, and a fixed wait on the second. -/
def waits : String := "cy.wait(1000); cy.wait('@a')\ncy.wait(2000)"

def waitsOutline : Outline :=
  piece (.other "program") none 0 42 [
    methodCall none 0 3 7 13 (piece .identifier (some .object) 0 2 [])
      [piece .number none 8 12 []],
    methodCall none 15 18 22 28 (piece .identifier (some .object) 15 17 [])
      [piece .string none 23 27 []],
    methodCall none 29 32 36 42 (piece .identifier (some .object) 29 31 [])
      [piece .number none 37 41 []]]

end Sample

/-- With the comment on the first line, the wait there is passed over; the alias wait next to it and the
wait below are reported still. -/
theorem Checker.analyze_disabled_first_line :
    let parsed := Parsed.ofOutline Sample.waits defaultGrammar Sample.waitsOutline
    let file := TestFile.ofContent "a.cy.js" Sample.waits parsed
    let other := TestFile.ofContent "a.cy.js"
      (Text.lengthened 1 Wait.disableComment Sample.waits) parsed
    parsed.root.isPositioned ∧
    lineAt? (Text.sourceLines Sample.waits) 1 = some "cy.wait(1000); cy.wait('@a')" ∧
    ∃ output output',
      asyncReliability.analyze file = .ok output ∧
      output.issues.map Issue.line = [some 1, some 1, some 2] ∧
      asyncReliability.analyze other = .ok output' ∧
      output'.issues.map Issue.line = [some 1, some 2] ∧
      output'.issues = (output.issues.filter fun issue =>
        !(issue.isFixedWait && issue.line == some 1)).map
          (Issue.reread 1 ("cy.wait(1000); cy.wait('@a')" ++ Wait.disableComment)) := by
  intro parsed file other
  have hpositioned : parsed.root.isPositioned := by decide +kernel
  have hline : lineAt? (Text.sourceLines Sample.waits) 1 =
      some "cy.wait(1000); cy.wait('@a')" := by decide +kernel
  obtain ⟨output, houtput, hlines⟩ := exists_eq_ok_of_map_toOption
    (show (asyncReliability.analyze file).toOption.map (fun output => output.issues.map Issue.line) =
      some [some 1, some 1, some 2] by decide +kernel)
  obtain ⟨output', houtput', hissues⟩ :=
    (analyze_disabled hpositioned hline "a.cy.js" asyncReliability).1 output houtput
  have hlines' : (asyncReliability.analyze other).toOption.map
      (fun output => output.issues.map Issue.line) = some [some 1, some 2] := by decide +kernel
  rw [houtput'] at hlines'
  exact ⟨hpositioned, hline, output, output', houtput, hlines, houtput', Option.some_inj.1 hlines',
    hissues⟩

end FlakeLint
