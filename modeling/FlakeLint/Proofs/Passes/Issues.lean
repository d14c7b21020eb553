-- SUMMARY: The passes of the checkers as plain functions with two reasons to fail.
import FlakeLint.Checker
import FlakeLint.Proofs.Passes.Queries

/-!
# Passes

Two things can stop a pass: a node without a position that is asked for its line,
and a delay whose decimal numeral is longer than any number is ever written. For
each step the nodes that it asks are named here, and the step is shown to be a plain
function of the file where neither happens. On a tree in which every node has a
position the second reason alone is left.
-/

namespace FlakeLint

/-! ## Writing numbers -/

namespace Number

/-- Is the number short enough to be written? -/
def isWritable : Number → Bool
  | .int n => decide ((toString n.natAbs).length ≤ digitLimit)
  | .real _ => true

/-- The text of a number, however long it is. -/
def numeral : Number → String
  | .int n => toString n
  | .real d => d.text

theorem text_eq (n : Number) :
    n.text = if n.isWritable then .ok n.numeral else .error (.number .tooLongToWrite) := by
  cases n with
  | real d => rfl
  | int n =>
    simp only [text, intText, isWritable, numeral, decide_eq_true_eq]
    by_cases h : digitLimit < (toString n.natAbs).length
    · rw [if_pos h, if_neg (Nat.not_le.2 h)]
    · rw [if_neg h, if_pos (Nat.not_lt.1 h)]

end Number

/-! ## Fixed waits -/

namespace Checker

/-- The delay of a fixed wait, as the checker reads it off a call. -/
def delay? (call : Node) : Checker → Option Number
  | .asyncReliability =>
    if call.isCallOf libraryObject "wait" then
      (Wait.soleArgument? call).bind Node.numberValue?
    else none
  | .pageTimeouts =>
    if call.isCallOf FixedWait.pageObject "waitForTimeout" then
      call.arguments.head?.bind Node.numberValue?
    else none

/-- Is a fixed wait reported: long enough, without an excuse on its line and, in Cypress tests, not
part of retry code? -/
def reportsDelay (file : TestFile) (call : Cursor) (delay : Number) : Checker → Bool
  | .asyncReliability =>
    (Number.int Wait.reportedFrom).le delay &&
      !(Wait.isExempt (lineText file.lines call.node.line) delay ||
        Retry.covers libraryObject call)
  | .pageTimeouts =>
    !delay.lt (.int Wait.reportedFrom) &&
      !Wait.isExempt (lineText file.lines call.node.line) delay

def delayFinding (delay : String) (explained : Bool) : Checker → Finding
  | .asyncReliability => FixedWait.cypressFinding delay explained
  | .pageTimeouts => FixedWait.playwrightFinding delay explained

/-- The issue of a fixed wait, if it is reported. -/
def delayIssues (file : TestFile) (call : Cursor) (delay : Number) (checker : Checker) :
    List Issue :=
  if checker.reportsDelay file call delay then
    [file.issueAt (checker.delayFinding delay.numeral
      (Wait.isExplained (lineText file.lines call.node.line))) call.node]
  else []

/-- Is a delay long enough for its line to be asked for? -/
def asksAbout (delay : Number) : Checker → Bool
  | .asyncReliability => (Number.int Wait.reportedFrom).le delay
  | .pageTimeouts => !delay.lt (.int Wait.reportedFrom)

/-- The fixed wait whose line decides on it. -/
def askedByDelay (call : Cursor) (delay : Number) (checker : Checker) : List Node :=
  if checker.asksAbout delay then [call.node] else []

/-- Is a call a fixed wait that is to be reported with a delay too long to be written? -/
def isUnwritable (file : TestFile) (checker : Checker) (call : Cursor) : Bool :=
  (checker.delay? call.node).any fun delay =>
    checker.reportsDelay file call delay && !delay.isWritable

theorem isPositioned_of_mem_askedByDelay {checker : Checker} {call : Cursor} {delay : Number}
    (h : call.node.isPositioned) {n : Node} (hn : n ∈ checker.askedByDelay call delay) :
    n.isPositioned := by
  unfold askedByDelay at hn
  split at hn
  · rwa [List.mem_singleton.1 hn]
  · cases hn

end Checker

namespace FixedWait

theorem cypressIssues_guarded (file : TestFile) (call : Cursor) (delay : Number) :
    cypressIssues file call delay =
      if (Checker.asyncReliability.askedByDelay call delay).any Node.isUnplaced then
        .error .missingPosition
      else if Checker.asyncReliability.reportsDelay file call delay && !delay.isWritable then
        .error (.number .tooLongToWrite)
      else .ok (Checker.asyncReliability.delayIssues file call delay) := by
  unfold cypressIssues Checker.askedByDelay Checker.asksAbout Checker.delayIssues
    Checker.reportsDelay
  cases hlong : (Number.int Wait.reportedFrom).le delay with
  | false => simp [pure, Except.pure]
  | true =>
    rw [call.node.startLine_eq]
    cases hplace : call.node.isUnplaced with
    | true => simp [hplace, bind, Except.bind]
    | false =>
      by_cases hexcuse : Wait.isExempt (lineText file.lines call.node.line) delay ||
          Retry.covers libraryObject call
      · simp [hplace, hexcuse, bind, Except.bind, pure, Except.pure]
      · cases hwritable : delay.isWritable <;>
          simp [hplace, hexcuse, Number.text_eq, hwritable, bind, Except.bind, pure, Except.pure,
            Checker.delayFinding]

/-- The call of `page.waitForTimeout` whose line decides on it. -/
def askedByTimeout (call : Cursor) : List Node :=
  ((Checker.pageTimeouts.delay? call.node).map
    fun delay => Checker.pageTimeouts.askedByDelay call delay).getD []

theorem playwrightIssues_guarded (file : TestFile) (call : Cursor) :
    playwrightIssues file call =
      if (askedByTimeout call).any Node.isUnplaced then .error .missingPosition
      else if Checker.pageTimeouts.isUnwritable file call then .error (.number .tooLongToWrite)
      else .ok (((Checker.pageTimeouts.delay? call.node).map fun delay =>
        Checker.pageTimeouts.delayIssues file call delay).getD []) := by
  unfold playwrightIssues askedByTimeout Checker.isUnwritable Checker.delay?
  cases hcall : call.node.isCallOf pageObject "waitForTimeout" with
  | false => simp [pure, Except.pure]
  | true =>
    simp only [if_true]
    cases call.node.arguments.head?.bind Node.numberValue? with
    | none => rfl
    | some delay =>
      simp only [Bool.not_true, Bool.false_eq_true, if_false, Option.any_some, Option.map_some,
        Option.getD_some, Checker.askedByDelay, Checker.asksAbout, Checker.delayIssues,
        Checker.reportsDelay]
      by_cases hshort : delay.lt (.int Wait.reportedFrom)
      · simp [hshort, pure, Except.pure]
      · rw [call.node.startLine_eq]
        cases hplace : call.node.isUnplaced with
        | true => simp [hshort, hplace, bind, Except.bind]
        | false =>
          by_cases hexempt : Wait.isExempt (lineText file.lines call.node.line) delay
          · simp [hshort, hplace, hexempt, bind, Except.bind, pure, Except.pure]
          · by_cases hwritable : delay.isWritable
            · simp [hshort, hplace, hexempt, Number.text_eq, hwritable, bind, Except.bind, pure,
                Except.pure, Checker.delayFinding]
            · simp [hshort, hplace, hexempt, Number.text_eq, hwritable, bind, Except.bind]

theorem playwrightIssues_eq (file : TestFile) {call : Cursor} (h : call.node.isPositioned) :
    playwrightIssues file call =
      if Checker.pageTimeouts.isUnwritable file call then .error (.number .tooLongToWrite)
      else .ok (((Checker.pageTimeouts.delay? call.node).map fun delay =>
        Checker.pageTimeouts.delayIssues file call delay).getD []) := by
  have hasked : ∀ n ∈ askedByTimeout call, n.isPositioned := by
    unfold askedByTimeout
    cases Checker.pageTimeouts.delay? call.node with
    | none => simp
    | some delay => exact fun n hn => Checker.isPositioned_of_mem_askedByDelay h hn
  rw [playwrightIssues_guarded, Node.any_isUnplaced_eq_false hasked]
  rfl

end FixedWait

/-! ## Waits for aliases, unverified actions -/

theorem isPositioned_cursor {file : TestFile} (h : file.parsed.root.isPositioned) :
    file.cursor.node.isPositioned :=
  h

namespace AliasWait

/-- What is said about a wait for an alias. -/
def findings (file : TestFile) (declared : List String) (call : Cursor) (waited : String) :
    List Finding :=
  if !declared.contains waited then [undeclaredFinding waited]
  else if Names.isBackgroundAlias waited ||
      Wait.inRun call.node.line 1 (Wait.aliasLines file.cursor libraryObject).mergeSort then []
  else [declaredFinding waited]

/-- The calls that are asked for their lines about a wait: of a declared alias for the run that it may
belong to, and none for any other. -/
def asked (file : TestFile) (declared : List String) (call : Cursor) (waited : String) : List Node :=
  if declared.contains waited && !Names.isBackgroundAlias waited then
    call.node :: Wait.aliasWaits file.cursor libraryObject
  else []

theorem issues_guarded (file : TestFile) (declared : List String) (call : Cursor) (waited : String) :
    issues file declared call waited =
      if (asked file declared call waited).any Node.isUnplaced then .error .missingPosition
      else .ok ((findings file declared call waited).map fun finding =>
        file.issueAt finding call.node) := by
  unfold issues asked findings
  cases hdeclared : declared.contains waited with
  | false => simp [pure, Except.pure]
  | true =>
    cases hbackground : Names.isBackgroundAlias waited with
    | true => simp [pure, Except.pure]
    | false =>
      rw [call.node.startLine_eq]
      cases hplace : call.node.isUnplaced with
      | true => simp [hplace, bind, Except.bind]
      | false =>
        simp only [Bool.false_eq_true, if_false, bind, Except.bind, Wait.isConsecutive_guarded]
        cases hwaits : (Wait.aliasWaits file.cursor libraryObject).any Node.isUnplaced with
        | true => simp [hplace, hwaits]
        | false =>
          cases Wait.inRun call.node.line 1 (Wait.aliasLines file.cursor libraryObject).mergeSort <;>
            simp [hplace, hwaits, pure, Except.pure]

theorem isPositioned_of_mem_asked {file : TestFile} (hfile : file.parsed.root.isPositioned)
    {call : Cursor} (hcall : call.node.isPositioned) {declared : List String} {waited : String}
    {n : Node} (hn : n ∈ asked file declared call waited) : n.isPositioned := by
  unfold asked at hn
  split at hn
  · rcases List.mem_cons.1 hn with rfl | hn
    · exact hcall
    · obtain ⟨wait, hwait, rfl⟩ := List.mem_map.1 hn
      exact Cursor.isPositioned_of_mem_calls (isPositioned_cursor hfile) (List.mem_filter.1 hwait).1
  · cases hn

end AliasWait

namespace UnverifiedAction

/-- Some assertion under a place, wherever it stands, verifies what happens on a line. -/
theorem isFollowedUp_linesUnder (place : Cursor) (line : Int) :
    isFollowedUp (Assertion.linesUnder place) line = place.calls.any fun call =>
      (Assertion.sitesOf call.node).any fun site =>
        line < site.line && site.line ≤ line + followUpWindow := by
  unfold isFollowedUp
  rw [Bool.eq_iff_iff, List.any_eq_true, List.any_eq_true]
  simp only [Assertion.mem_linesUnder, List.any_eq_true]
  constructor
  · rintro ⟨_, ⟨call, hcall, site, hsite, rfl⟩, hline⟩
    exact ⟨call, hcall, site, hsite, hline⟩
  · rintro ⟨call, hcall, site, hsite, hline⟩
    exact ⟨site.line, ⟨call, hcall, site, hsite, rfl⟩, hline⟩

/-- Is an action verified in its own chain or later on, or excused from it? -/
def isSettled (file : TestFile) (site : ActionSite) : Bool :=
  site.isAsserted ||
  isFollowedUp (Assertion.linesUnder file.cursor) site.line ||
  (site.selector.any fun selector => selector != "" &&
    Assertion.isRelatedBelow file.cursor selector site.line) ||
  Setup.excuses site.command site.selector file.lines site.line

/-- The issues of the actions found in a file. -/
def found (file : TestFile) : List Issue :=
  ((ActionSite.sites file.parsed libraryObject).filter fun site => !isSettled file site).map
    fun site => (finding site.command).issue file.lines (some site.location)

/-- The issue of a call that is a user action, unless that is settled. -/
def issueOf? (file : TestFile) (call : Cursor) : Option Issue :=
  ((ActionSite.command? libraryObject call.node).map (ActionSite.ofCommand file.parsed call)).bind
    fun site =>
      if isSettled file site then none
      else some ((finding site.command).issue file.lines (some site.location))

theorem found_eq (file : TestFile) : found file = file.cursor.calls.filterMap (issueOf? file) := by
  unfold found ActionSite.sites
  rw [List.filter_filterMap, List.map_filterMap]
  refine List.filterMap_congr fun call _ => ?_
  unfold issueOf?
  cases (ActionSite.command? libraryObject call.node).map (ActionSite.ofCommand file.parsed call) with
  | none => rfl
  | some site =>
    rw [Option.filter_some, Option.bind_some]
    cases isSettled file site <;> rfl

/-- The calls that are asked for their lines about an action: those that a search for a related
assertion goes through, if there is need of one. -/
def asked (file : TestFile) (site : ActionSite) : List Node :=
  if site.isAsserted || isFollowedUp (Assertion.linesUnder file.cursor) site.line then []
  else ((site.selector.filter (· != "")).map fun selector =>
    Assertion.searched file.cursor selector site.line).getD []

theorem isUnsettled_guarded (file : TestFile) (site : ActionSite) :
    (do
      if site.isAsserted then return false
      return !(← isVerified file (Assertion.linesUnder file.cursor) site) : Except Fault Bool) =
      if (asked file site).any Node.isUnplaced then .error .missingPosition
      else .ok (!isSettled file site) := by
  unfold isVerified asked isSettled
  cases site.isAsserted with
  | true => simp [pure, Except.pure]
  | false =>
    cases isFollowedUp (Assertion.linesUnder file.cursor) site.line with
    | true => simp [bind, Except.bind, pure, Except.pure]
    | false =>
      cases site.selector with
      | none => simp [bind, Except.bind, pure, Except.pure]
      | some selector =>
        by_cases hempty : selector = ""
        · simp [hempty, Option.filter_some, bind, Except.bind, pure, Except.pure]
        · have hsome : (selector != "") = true := bne_iff_ne.2 hempty
          cases hasked : (Assertion.searched file.cursor selector site.line).any Node.isUnplaced <;>
            simp [hempty, hsome, hasked, Assertion.hasRelated_guarded, Option.filter_some, bind,
              Except.bind, pure, Except.pure]

theorem issues_guarded (file : TestFile) :
    issues file (Assertion.linesUnder file.cursor) (ActionSite.sites file.parsed libraryObject) =
      if ((ActionSite.sites file.parsed libraryObject).flatMap (asked file)).any Node.isUnplaced then
        .error .missingPosition
      else .ok (found file) := by
  unfold issues
  rw [filterM_eq_guarded fun site _ => isUnsettled_guarded file site, guarded_bind,
    List.any_flatMap]
  rfl

theorem issues_eq_ok {file : TestFile} (h : file.parsed.root.isPositioned) :
    issues file (Assertion.linesUnder file.cursor) (ActionSite.sites file.parsed libraryObject) =
      .ok (found file) := by
  have hasked : ∀ n ∈ (ActionSite.sites file.parsed libraryObject).flatMap (asked file),
      n.isPositioned := by
    intro n hn
    obtain ⟨site, -, hn⟩ := List.mem_flatMap.1 hn
    unfold asked at hn
    split at hn
    · cases hn
    · cases hselector : site.selector.filter (· != "") with
      | none =>
        rw [hselector] at hn
        cases hn
      | some selector =>
        rw [hselector] at hn
        exact Assertion.isPositioned_of_mem_searched (isPositioned_cursor h) hn
  rw [issues_guarded, Node.any_isUnplaced_eq_false hasked]
  rfl

end UnverifiedAction

/-! ## All passes -/

namespace Checker

/-- The issues of one call of `cy.wait`, however long its delay. -/
def waitsAt (file : TestFile) (declared : List String) (call : Cursor) : List Issue :=
  match Checker.asyncReliability.delay? call.node with
  | some delay => Checker.asyncReliability.delayIssues file call delay
  | none =>
    ((Wait.alias? libraryObject call.node).map fun waited =>
      (AliasWait.findings file declared call waited).map fun finding =>
        file.issueAt finding call.node).getD []

/-- The issues of one call of `page.waitForTimeout`, however long its delay. -/
def timeoutsAt (file : TestFile) (call : Cursor) : List Issue :=
  ((Checker.pageTimeouts.delay? call.node).map fun delay =>
    Checker.pageTimeouts.delayIssues file call delay).getD []

/-- The issues about waits, in source order. -/
def waitsFound (file : TestFile) : List Issue :=
  file.cursor.calls.flatMap (waitsAt file (Wait.declaredAliases file.cursor))

/-- The issues of a file, pass by pass. -/
def found (file : TestFile) : Checker → List Issue
  | .asyncReliability => waitsFound file ++ UnverifiedAction.found file ++ BrokenChain.issues file
  | .pageTimeouts => file.cursor.calls.flatMap (timeoutsAt file)

/-- Is some fixed wait to be reported with a delay that is too long to be written? -/
def isStopped (file : TestFile) (checker : Checker) : Bool :=
  file.cursor.calls.any (checker.isUnwritable file)

/-- The calls that are asked for their lines about a call of `cy.wait`. -/
def askedByWait (file : TestFile) (declared : List String) (call : Cursor) : List Node :=
  match Checker.asyncReliability.delay? call.node with
  | some delay => Checker.asyncReliability.askedByDelay call delay
  | none =>
    ((Wait.alias? libraryObject call.node).map (AliasWait.asked file declared call)).getD []

theorem waitIssues_guarded (file : TestFile) (declared : List String) (call : Cursor) :
    waitIssues file declared call =
      if (askedByWait file declared call).any Node.isUnplaced then .error .missingPosition
      else if isUnwritable file .asyncReliability call then .error (.number .tooLongToWrite)
      else .ok (waitsAt file declared call) := by
  unfold waitIssues askedByWait waitsAt isUnwritable delay?
  cases hwait : call.node.isCallOf libraryObject "wait" with
  | false =>
    have halias : Wait.alias? libraryObject call.node = none := if_neg (by simp [hwait])
    simp [halias]
  | true =>
    simp only [if_true]
    cases (Wait.soleArgument? call.node).bind Node.numberValue? with
    | some delay => exact FixedWait.cypressIssues_guarded file call delay
    | none =>
      cases Wait.alias? libraryObject call.node with
      | some waited => exact AliasWait.issues_guarded file declared call waited
      | none => rfl

theorem waitIssues_eq {file : TestFile} (hfile : file.parsed.root.isPositioned) {call : Cursor}
    (hcall : call.node.isPositioned) (declared : List String) :
    waitIssues file declared call =
      if isUnwritable file .asyncReliability call then .error (.number .tooLongToWrite)
      else .ok (waitsAt file declared call) := by
  have hasked : ∀ n ∈ askedByWait file declared call, n.isPositioned := by
    unfold askedByWait
    cases Checker.asyncReliability.delay? call.node with
    | some delay => exact fun n hn => isPositioned_of_mem_askedByDelay hcall hn
    | none =>
      cases Wait.alias? libraryObject call.node with
      | some waited => exact fun n hn => AliasWait.isPositioned_of_mem_asked hfile hcall hn
      | none => simp
  rw [waitIssues_guarded, Node.any_isUnplaced_eq_false hasked]
  rfl

/-- Passing over the calls of a file stops exactly when one of them is to be reported with an
unwritable delay. -/
theorem issuesOfCalls_eq {file : TestFile} {checker : Checker}
    {issues : Cursor → Except Fault (List Issue)} {found : Cursor → List Issue}
    (h : ∀ call ∈ file.cursor.calls, issues call =
      if checker.isUnwritable file call then .error (.number .tooLongToWrite)
      else .ok (found call)) :
    file.issuesOfCalls issues =
      if checker.isStopped file then .error (.number .tooLongToWrite)
      else .ok (file.cursor.calls.flatMap found) := by
  unfold TestFile.issuesOfCalls isStopped
  rw [mapM_eq_guarded h]
  cases file.cursor.calls.any (checker.isUnwritable file) <;> rfl

theorem waitPass_eq {file : TestFile} (h : file.parsed.root.isPositioned) :
    waitPass file =
      if isStopped file .asyncReliability then .error (.number .tooLongToWrite)
      else .ok (waitsFound file) :=
  issuesOfCalls_eq fun _ hcall =>
    waitIssues_eq h (Cursor.isPositioned_of_mem_calls h hcall) (Wait.declaredAliases file.cursor)

theorem issues_eq {file : TestFile} (h : file.parsed.root.isPositioned) (checker : Checker) :
    checker.issues file =
      if checker.isStopped file then .error (.number .tooLongToWrite)
      else .ok (checker.found file) := by
  cases checker with
  | asyncReliability =>
    unfold issues
    rw [Assertion.lines_eq_ok (isPositioned_cursor h), ActionSite.find_eq_ok h, waitPass_eq h]
    simp only [bind, Except.bind, UnverifiedAction.issues_eq_ok h]
    cases isStopped file .asyncReliability <;> rfl
  | pageTimeouts =>
    exact issuesOfCalls_eq fun _ hcall =>
      FixedWait.playwrightIssues_eq file (Cursor.isPositioned_of_mem_calls h hcall)

/-- The tests of a file with their lines. -/
def blocksFound (file : TestFile) (checker : Checker) : List TestBlock :=
  TestBlock.numbered 0 (TestBlock.bodies checker.testNames file.cursor)

theorem blocks_eq_ok {file : TestFile} (h : file.parsed.root.isPositioned) (checker : Checker) :
    checker.blocks file = .ok (checker.blocksFound file) :=
  TestBlock.find_eq_ok (isPositioned_cursor h) checker.testNames

/-- What the checker says about a file with the given issues and tests. -/
def rated (checker : Checker) (path : String) (issues : List Issue) (blocks : List TestBlock) :
    Except Fault Output := do
  let score : Number ← Checker.score issues blocks
  let grade := Score.grade score
  return {
    checker := checker.key
    path
    issues
    grade
    score := some score
    summary := ← checker.summary issues.length grade (some score) }

theorem analyze_eq {file : TestFile} (h : file.parsed.root.isPositioned) (checker : Checker) :
    checker.analyze file =
      if checker.isStopped file then .error (.number .tooLongToWrite)
      else checker.rated file.path (checker.found file) (checker.blocksFound file) := by
  unfold analyze
  rw [issues_eq h, blocks_eq_ok h]
  cases checker.isStopped file <;> rfl

theorem issues_of_rated {checker : Checker} {path : String} {issues : List Issue}
    {blocks : List TestBlock} {output : Output}
    (h : checker.rated path issues blocks = .ok output) : output.issues = issues := by
  obtain ⟨score, -, h⟩ := exists_eq_ok_of_bind h
  obtain ⟨summary, -, h⟩ := exists_eq_ok_of_bind h
  cases h
  rfl

end Checker

end FlakeLint
