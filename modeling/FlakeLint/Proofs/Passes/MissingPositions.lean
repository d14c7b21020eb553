-- SUMMARY: Trees in which nodes lack a position: which positions a checker cannot do without.
import FlakeLint.Proofs.Passes.Faults
import FlakeLint.Proofs.Passes.Issues
import FlakeLint.Proofs.Tree.Outline

/-!
# Missing positions

A checker asks some nodes for their position: assertions, user actions, waits whose
line decides on them, and the bodies of tests. Where one of these has none, the
analysis is stopped. All other nodes may lack a position; a problem that is found
on one of them is reported without a place.
-/

namespace FlakeLint

-- ---------------------------------------------------------------------------
-- Positions that are asked for
-- ---------------------------------------------------------------------------

namespace Checker

section

variable (file : TestFile)

/-- The nodes that the passes of a checker ask for their position. -/
def askedByPasses : Checker → List Node
  | .asyncReliability =>
    Assertion.sites file.cursor ++ ActionSite.ends file.parsed libraryObject ++
      file.cursor.calls.flatMap (askedByWait file (Wait.declaredAliases file.cursor)) ++
      (ActionSite.sites file.parsed libraryObject).flatMap (UnverifiedAction.asked file)
  | .pageTimeouts => file.cursor.calls.flatMap FixedWait.askedByTimeout

/-- The nodes that a checker asks for their position: those of its passes, and the bodies of tests. -/
def asked (checker : Checker) : List Node :=
  checker.askedByPasses file ++ TestBlock.bodies checker.testNames file.cursor

end

section

variable {file : TestFile} {checker : Checker} {issues : Cursor → Except Fault (List Issue)}
  {asked : Cursor → List Node} {found : Cursor → List Issue}

theorem issuesOfCalls_guarded
    (h : ∀ call, issues call =
      if (asked call).any Node.isUnplaced then .error .missingPosition
      else if checker.isUnwritable file call then .error (.number .tooLongToWrite)
      else .ok (found call))
    (hwritable : checker.isStopped file = false) :
    file.issuesOfCalls issues =
      if (file.cursor.calls.flatMap asked).any Node.isUnplaced then .error .missingPosition
      else .ok (file.cursor.calls.flatMap found) := by
  have hcall : ∀ call ∈ file.cursor.calls, issues call =
      if (asked call).any Node.isUnplaced then .error .missingPosition else .ok (found call) := by
    intro call hmem
    rw [h, List.any_eq_false.1 hwritable call hmem |> Bool.eq_false_iff.2]
    rfl
  unfold TestFile.issuesOfCalls
  rw [mapM_eq_guarded hcall, guarded_bind, List.any_flatMap]
  rfl

/-- Passing over the calls of a file does not come to its end where one of them is to be reported with
an unwritable delay. -/
theorem issuesOfCalls_ne_ok
    (h : ∀ call, issues call =
      if (asked call).any Node.isUnplaced then .error .missingPosition
      else if checker.isUnwritable file call then .error (.number .tooLongToWrite)
      else .ok (found call))
    (hstopped : checker.isStopped file = true) (all : List Issue) :
    file.issuesOfCalls issues ≠ .ok all := by
  intro hall
  obtain ⟨call, hcall, hunwritable⟩ := List.any_eq_true.1 hstopped
  obtain ⟨_, hpass, -⟩ := exists_eq_ok_of_bind hall
  obtain ⟨here, hhere⟩ := exists_eq_ok_of_mapM hpass hcall
  rw [h, hunwritable, if_pos rfl] at hhere
  split at hhere <;> cases hhere

end

section

variable {file : TestFile}

theorem issues_guarded {checker : Checker} (h : checker.isStopped file = false) :
    checker.issues file =
      if (checker.askedByPasses file).any Node.isUnplaced then .error .missingPosition
      else .ok (checker.found file) := by
  cases checker with
  | asyncReliability =>
    unfold issues waitPass askedByPasses
    rw [Assertion.lines_guarded, guarded_bind, ActionSite.find_guarded, guarded_bind,
      issuesOfCalls_guarded (waitIssues_guarded file _) h, guarded_bind,
      UnverifiedAction.issues_guarded, guarded_bind]
    simp only [List.any_append, Bool.or_eq_true, ite_or, or_assoc]
    rfl
  | pageTimeouts => exact issuesOfCalls_guarded (FixedWait.playwrightIssues_guarded file) h

theorem issues_ne_ok {checker : Checker} (h : checker.isStopped file = true) (all : List Issue) :
    checker.issues file ≠ .ok all := by
  cases checker with
  | asyncReliability =>
    intro hall
    obtain ⟨_, -, hall⟩ := exists_eq_ok_of_bind hall
    obtain ⟨_, -, hall⟩ := exists_eq_ok_of_bind hall
    obtain ⟨waits, hwaits, -⟩ := exists_eq_ok_of_bind hall
    exact issuesOfCalls_ne_ok (waitIssues_guarded file _) h waits hwaits
  | pageTimeouts => exact issuesOfCalls_ne_ok (FixedWait.playwrightIssues_guarded file) h all

theorem blocks_guarded (file : TestFile) (checker : Checker) :
    checker.blocks file =
      if (TestBlock.bodies checker.testNames file.cursor).any Node.isUnplaced then
        .error .missingPosition
      else .ok (checker.blocksFound file) :=
  TestBlock.number_guarded 0 _

theorem analyze_guarded {checker : Checker} (h : checker.isStopped file = false) :
    checker.analyze file =
      if (checker.asked file).any Node.isUnplaced then .error .missingPosition
      else checker.rated file.path (checker.found file) (checker.blocksFound file) := by
  rw [analyze_eq_rated, issues_guarded h, guarded_bind, blocks_guarded, guarded_bind]
  simp only [asked, List.any_append, Bool.or_eq_true, ite_or]

end

end Checker

-- ---------------------------------------------------------------------------
-- Problems
-- ---------------------------------------------------------------------------

/-- A finding with the nodes at which the source that it is about starts and ends. -/
structure Problem where
  finding : Finding
  first : Node
  last : Node

namespace Problem

/-- A problem with one node. -/
def about (n : Node) (finding : Finding) : Problem :=
  ⟨finding, n, n⟩

def isUnplaced (problem : Problem) : Bool :=
  problem.first.isUnplaced || problem.last.isUnplaced

/-- The issue of a problem, without a place if one of the nodes has none. -/
def issue (file : TestFile) (problem : Problem) : Issue :=
  problem.finding.issue file.lines
    (file.parsed.location problem.first problem.last).toOption

theorem issue_eq (file : TestFile) {problem : Problem} (hfirst : problem.first.isPositioned)
    (hlast : problem.last.isPositioned) :
    problem.issue file = problem.finding.issue file.lines
      (some (file.parsed.spanning problem.first problem.last)) := by
  unfold issue
  rw [Parsed.location_eq_ok hfirst hlast]
  rfl

theorem issue_of_isUnplaced (file : TestFile) {problem : Problem} (h : problem.isUnplaced = true) :
    (problem.issue file).location = none ∧ (problem.issue file).context = none := by
  unfold isUnplaced at h
  unfold issue
  rw [Parsed.location_eq, if_pos h]
  exact ⟨rfl, rfl⟩

end Problem

variable (file : TestFile)

/-- The problem of a call that is a user action, unless that is settled. -/
def UnverifiedAction.problem? (call : Cursor) : Option Problem :=
  ((ActionSite.command? libraryObject call.node).map (ActionSite.ofCommand file.parsed call)).bind
    fun site =>
      if isSettled file site then none
      else some ⟨finding site.command, call.node.chainStart.1, call.node⟩

namespace Checker

/-- What a checker says about a fixed wait. -/
def delayFindings (call : Cursor) (delay : Number) (checker : Checker) : List Finding :=
  if checker.reportsDelay file call delay then
    [checker.delayFinding delay.numeral
      (Wait.isExplained (lineText file.lines call.node.line))]
  else []

/-- What a checker says about a call that waits. -/
def waitFindings (call : Cursor) (checker : Checker) : List Finding :=
  match checker, checker.delay? call.node with
  | _, some delay => checker.delayFindings file call delay
  | .asyncReliability, none =>
    ((Wait.alias? libraryObject call.node).map
      (AliasWait.findings file (Wait.declaredAliases file.cursor) call)).getD []
  | .pageTimeouts, none => []

def waitProblems (call : Cursor) (checker : Checker) : List Problem :=
  (checker.waitFindings file call).map (Problem.about call.node)

/-- The problems of a file, pass by pass. -/
def problems : Checker → List Problem
  | .asyncReliability =>
    (file.cursor.calls.flatMap fun call => waitProblems file call .asyncReliability) ++
      file.cursor.calls.filterMap (UnverifiedAction.problem? file) ++
      (file.cursor.walk.filterMap BrokenChain.brokenAt?).map fun (finding, function) =>
        .about function finding
  | .pageTimeouts => file.cursor.calls.flatMap fun call => waitProblems file call .pageTimeouts

theorem waitsAt_eq (call : Cursor) :
    waitsAt file (Wait.declaredAliases file.cursor) call =
      (waitProblems file call .asyncReliability).map (Problem.issue file) := by
  unfold waitsAt waitProblems waitFindings
  rw [List.map_map]
  cases Checker.asyncReliability.delay? call.node with
  | some delay =>
    dsimp only
    unfold delayIssues delayFindings
    split <;> rfl
  | none => cases Wait.alias? libraryObject call.node <;> rfl

theorem timeoutsAt_eq (call : Cursor) :
    timeoutsAt file call = (waitProblems file call .pageTimeouts).map (Problem.issue file) := by
  unfold timeoutsAt waitProblems waitFindings
  rw [List.map_map]
  cases Checker.pageTimeouts.delay? call.node with
  | some delay =>
    dsimp only [Option.map_some, Option.getD_some]
    unfold delayIssues delayFindings
    split <;> rfl
  | none => rfl

end Checker

variable {file}

/-- An action whose ends have positions is reported between them. -/
theorem UnverifiedAction.issueOf?_eq {call : Cursor} (hcall : call ∈ file.cursor.calls)
    (h : (ActionSite.ends file.parsed libraryObject).any Node.isUnplaced = false) :
    issueOf? file call = (problem? file call).map (Problem.issue file) := by
  unfold issueOf? problem?
  cases hcommand : ActionSite.command? libraryObject call.node with
  | none => rfl
  | some command =>
    have hends : ∀ n ∈ [call.node.chainStart.1, call.node], n.isUnplaced = false := by
      intro n hn
      refine Bool.eq_false_iff.2 (List.any_eq_false.1 h n (List.mem_flatMap.2 ⟨call, ?_, hn⟩))
      exact List.mem_filter.2 ⟨hcall, by simp [hcommand]⟩
    rw [Option.map_some, Option.bind_some, Option.bind_some]
    split
    · rfl
    · rw [Option.map_some, Problem.issue, Parsed.location_eq,
        hends call.node.chainStart.1 (by simp), hends call.node (by simp)]
      rfl

theorem UnverifiedAction.ends_of_problem? {call : Cursor} {problem : Problem}
    (h : problem? file call = some problem) :
    problem.first = call.node.chainStart.1 ∧ problem.last = call.node := by
  obtain ⟨site, -, hproblem⟩ := Option.bind_eq_some_iff.1 h
  split at hproblem
  · cases hproblem
  · cases hproblem
    exact ⟨rfl, rfl⟩

namespace BrokenChain

/-- Is this a call `….then(…)`? -/
def isThenCall (place : Cursor) : Bool :=
  place.kind = .call && place.node.methodName? == some "then"

/-- What is reported for a place is the callback of its call or the place itself. -/
theorem brokenAt?_cases {place : Cursor} {finding : Finding} {function : Node}
    (h : brokenAt? place = some (finding, function)) :
    (isThenCall place = true ∧ place.node.arguments.head? = some function ∧
      isBrokenCallback function = true) ∨
    (isThenCall place = false ∧ isHelper place = true ∧ function = place.node) := by
  unfold brokenAt? at h
  split at h
  · next hthen =>
    obtain ⟨callback, hcallback, heq⟩ := Option.map_eq_some_iff.1 h
    cases heq
    exact .inl ⟨hthen, Option.filter_eq_some_iff.1 hcallback⟩
  · next hother =>
    split at h
    · next hhelper =>
      cases h
      exact .inr ⟨Bool.eq_false_iff.2 hother, (Bool.and_eq_true_iff.1 hhelper).1, rfl⟩
    · cases h

theorem contains_of_brokenAt? {place : Cursor} {finding : Finding} {function : Node}
    (h : brokenAt? place = some (finding, function)) : place.node.Contains function := by
  rcases brokenAt?_cases h with ⟨-, hargument, -⟩ | ⟨-, -, rfl⟩
  · exact Node.contains_of_mem_arguments (List.mem_of_head? hargument)
  · exact .self _

end BrokenChain

namespace Checker

/-- Each problem is about a node of the file and starts at that node or below it. -/
theorem contains_of_mem_problems {checker : Checker} {problem : Problem}
    (h : problem ∈ checker.problems file) :
    file.parsed.root.Contains problem.last ∧ problem.last.Contains problem.first := by
  have hwait (hmem : problem ∈ file.cursor.calls.flatMap fun call => waitProblems file call checker) :
      file.parsed.root.Contains problem.last ∧ problem.last.Contains problem.first := by
    obtain ⟨call, hcall, hfound⟩ := List.mem_flatMap.1 hmem
    obtain ⟨finding, -, rfl⟩ := List.mem_map.1 hfound
    exact ⟨Cursor.contains_of_mem_calls hcall, .self _⟩
  cases checker with
  | asyncReliability =>
    rw [problems, List.mem_append, List.mem_append] at h
    rcases h with (hmem | haction) | hchain
    · exact hwait hmem
    · obtain ⟨call, hcall, hproblem⟩ := List.mem_filterMap.1 haction
      obtain ⟨hfirst, hlast⟩ := UnverifiedAction.ends_of_problem? hproblem
      rw [hfirst, hlast]
      exact ⟨Cursor.contains_of_mem_calls hcall, Node.contains_chainStart call.node⟩
    · obtain ⟨⟨finding, function⟩, hbroken, rfl⟩ := List.mem_map.1 hchain
      obtain ⟨place, hplace, hat⟩ := List.mem_filterMap.1 hbroken
      exact ⟨(Cursor.contains_of_mem_walk hplace).trans (BrokenChain.contains_of_brokenAt? hat),
        .self _⟩
  | pageTimeouts => exact hwait h

/-- Where every node that is asked for it has a position, the issues of a file are its problems. -/
theorem found_eq_problems {checker : Checker}
    (h : (checker.asked file).any Node.isUnplaced = false) :
    checker.found file = (checker.problems file).map (Problem.issue file) := by
  cases checker with
  | asyncReliability =>
    have hends : (ActionSite.ends file.parsed libraryObject).any Node.isUnplaced = false := by
      simp only [asked, askedByPasses, List.any_append, Bool.or_eq_false_iff] at h
      exact h.1.1.1.2
    rw [found, problems, List.map_append, List.map_append, List.map_flatMap, List.map_filterMap,
      UnverifiedAction.found_eq, List.map_map]
    congr 2
    · exact List.flatMap_congr fun call _ => waitsAt_eq file call
    · exact List.filterMap_congr fun call hcall => UnverifiedAction.issueOf?_eq hcall hends
  | pageTimeouts =>
    rw [found, problems, List.map_flatMap]
    exact List.flatMap_congr fun call _ => timeoutsAt_eq file call

theorem analyze_ok_iff {checker : Checker} :
    (∃ output, checker.analyze file = .ok output) ↔
      checker.isStopped file = false ∧ ∀ n ∈ checker.asked file, n.isUnplaced = false := by
  cases hstopped : checker.isStopped file with
  | true =>
    refine iff_of_false ?_ (by simp)
    rintro ⟨output, houtput⟩
    obtain ⟨issues, hissues, -⟩ := exists_eq_ok_of_bind (analyze_eq_rated file checker ▸ houtput)
    exact issues_ne_ok hstopped issues hissues
  | false =>
    rw [analyze_guarded hstopped]
    cases hasked : (checker.asked file).any Node.isUnplaced with
    | true =>
      obtain ⟨n, hn, hplace⟩ := List.any_eq_true.1 hasked
      refine iff_of_false (by simp) fun h => ?_
      rw [h.2 n hn] at hplace
      cases hplace
    | false =>
      obtain ⟨output, houtput, -⟩ :=
        checker.rated_ok file.path (checker.found file) (checker.blocksFound file)
      exact iff_of_true ⟨output, houtput⟩
        ⟨rfl, fun n hn => Bool.eq_false_iff.2 (List.any_eq_false.1 hasked n hn)⟩

theorem issues_of_analyze {checker : Checker} {output : Output}
    (h : checker.analyze file = .ok output) :
    output.issues = (checker.problems file).map (Problem.issue file) := by
  obtain ⟨hstopped, hplaced⟩ := analyze_ok_iff.1 ⟨output, h⟩
  have hasked : (checker.asked file).any Node.isUnplaced = false :=
    List.any_eq_false.2 fun n hn => Bool.eq_false_iff.1 (hplaced n hn)
  rw [analyze_guarded hstopped, hasked] at h
  rw [issues_of_rated h, found_eq_problems hasked]

/-- A checker comes to its end exactly if it gets by without positions that are missing and without
numbers that are too long; a position that is missing where it is asked for stops it. Whatever else
has no position is reported all the same, without a place. -/
theorem analyze_without_positions (checker : Checker) (file : TestFile) :
    ((∃ output, checker.analyze file = .ok output) ↔
      checker.isStopped file = false ∧ ∀ n ∈ checker.asked file, n.isUnplaced = false) ∧
    (checker.isStopped file = false → (∃ n ∈ checker.asked file, n.isUnplaced = true) →
      checker.analyze file = .error .missingPosition) ∧
    ∀ output, checker.analyze file = .ok output →
      output.issues = (checker.problems file).map (Problem.issue file) ∧
      ∀ problem ∈ checker.problems file, problem.isUnplaced = true →
        (problem.issue file).location = none ∧ (problem.issue file).context = none := by
  refine ⟨analyze_ok_iff, ?_, ?_⟩
  · rintro hstopped ⟨n, hn, hplace⟩
    rw [analyze_guarded hstopped, if_pos (List.any_eq_true.2 ⟨n, hn, hplace⟩)]
  · intro output houtput
    exact ⟨issues_of_analyze houtput, fun problem _ => problem.issue_of_isUnplaced file⟩

end Checker

namespace Sample

/-- The call `expect()`, of which only the call as a whole has no position. -/
def unplacedAssertion : TestFile :=
  .ofOutline "a.cy.js" "expect()" defaultGrammar <|
    piece (.other "program") none 0 8 [
      .mk .call true false false none none [
        piece .identifier (some .function) 0 6 [],
        piece .arguments (some .arguments) 6 8 []]]

/-- The call `cy.wait('@a')`, of which only the call as a whole has no position. -/
def unplacedWait : TestFile :=
  .ofOutline "a.cy.js" "cy.wait('@a')" defaultGrammar <|
    piece (.other "program") none 0 13 [
      .mk .call true false false none none [
        piece .member (some .function) 0 7 [
          piece .identifier (some .object) 0 2 [],
          piece .property (some .property) 3 7 []],
        piece .arguments (some .arguments) 7 13 [piece .string none 8 12 []]]]

end Sample

/-- Without its position an assertion stops the checker, and a wait for an undeclared alias is
reported without a place. -/
theorem Checker.analyze_without_one_position :
    Checker.asyncReliability.analyze Sample.unplacedAssertion = .error .missingPosition ∧
    ∃ output, Checker.asyncReliability.analyze Sample.unplacedWait = .ok output ∧
      output.issues.map (fun issue => (issue.location, issue.context)) = [(none, none)] := by
  obtain ⟨-, hstops, -⟩ :=
    Checker.analyze_without_positions .asyncReliability Sample.unplacedAssertion
  obtain ⟨hends, -, hissues⟩ :=
    Checker.analyze_without_positions .asyncReliability Sample.unplacedWait
  obtain ⟨output, houtput⟩ := hends.2 (by decide +kernel)
  refine ⟨hstops (by decide +kernel) (by decide +kernel), output, houtput, ?_⟩
  rw [(hissues output houtput).1]
  decide +kernel

end FlakeLint
