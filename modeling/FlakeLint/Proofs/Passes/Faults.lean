-- SUMMARY: What can stop a checker on a file that was parsed.
import FlakeLint.Proofs.Number.Score
import FlakeLint.Proofs.Traversal

/-!
# Faults of checkers

A checker works on a tree that is there already. It asks for lines, which a node
without a position does not have, and writes delays, which may be too long; nothing
else can stop it, whatever the tree looks like.
-/

namespace FlakeLint

/-- The faults that can stop a checker. -/
def Fault.StopsCheckers : Fault → Prop
  | .missingPosition | .number _ => True
  | _ => False

abbrev FailsAsChecker {α : Type} (x : Except Fault α) : Prop :=
  FailsOnly Fault.StopsCheckers x

-- ---------------------------------------------------------------------------
-- Lines and texts
-- ---------------------------------------------------------------------------

theorem Node.span_fails (n : Node) : FailsAsChecker n.span := by
  unfold Node.span
  split
  · exact .ok _
  · exact .error trivial

theorem Node.startLine_fails (n : Node) : FailsAsChecker n.startLine :=
  .bind n.span_fails fun _ => .ok _

theorem Node.endLine_fails (n : Node) : FailsAsChecker n.endLine :=
  .bind n.span_fails fun _ => .ok _

theorem Parsed.location_fails (parsed : Parsed) (first last : Node) :
    FailsAsChecker (parsed.location first last) :=
  .bind first.span_fails fun _ => .bind last.span_fails fun _ => .ok _

theorem Number.text_fails (n : Number) : FailsAsChecker n.text := by
  cases n with
  | real d => exact .ok _
  | int n =>
    unfold Number.text Number.intText
    dsimp only
    split
    · exact .error trivial
    · exact .ok _

-- ---------------------------------------------------------------------------
-- Queries
-- ---------------------------------------------------------------------------

theorem Assertion.lines_fails (place : Cursor) : FailsAsChecker (lines place) :=
  .bind (.mapM fun n _ => n.startLine_fails) fun _ => .ok _

theorem Assertion.hasRelated_fails (place : Cursor) (selector : String) (line : Int) :
    FailsAsChecker (hasRelated place selector line) :=
  .anyM fun call _ => .bind (.bind call.node.startLine_fails fun _ => .ok _) fun _ => .ok _

theorem ActionSite.find_fails (parsed : Parsed) (object : String) :
    FailsAsChecker (find parsed object) :=
  .mapM fun pair _ => .bind pair.1.node.startLine_fails fun _ =>
    .bind (parsed.location_fails _ _) fun _ => .ok _

theorem Wait.isConsecutive_fails (place : Cursor) (line : Int) (object : String) :
    FailsAsChecker (isConsecutive place line object) :=
  .bind (.mapM fun call _ => call.node.startLine_fails) fun _ => .ok _

theorem TestBlock.number_fails (index : Int) (bodies : List Node) :
    FailsAsChecker (number index bodies) := by
  induction bodies generalizing index with
  | nil => exact .ok []
  | cons body bodies ih =>
    exact .bind body.startLine_fails fun _ => .bind body.endLine_fails fun _ =>
      .bind (ih (index + 1)) fun _ => .ok _

-- ---------------------------------------------------------------------------
-- Problems
-- ---------------------------------------------------------------------------

section

variable (file : TestFile)

theorem FixedWait.cypressIssues_fails (call : Cursor) (delay : Number) :
    FailsAsChecker (cypressIssues file call delay) := by
  unfold cypressIssues
  split
  · refine .bind call.node.startLine_fails fun line => ?_
    dsimp only
    split
    · exact .ok []
    · exact .bind delay.text_fails fun _ => .ok _
  · exact .ok []

theorem FixedWait.playwrightIssues_fails (call : Cursor) :
    FailsAsChecker (playwrightIssues file call) := by
  unfold playwrightIssues
  split
  · exact .ok []
  · split
    · exact .ok []
    · next delay _ =>
      split
      · exact .ok []
      · refine .bind call.node.startLine_fails fun line => ?_
        dsimp only
        split
        · exact .ok []
        · exact .bind delay.text_fails fun _ => .ok _

theorem AliasWait.issues_fails (declared : List String) (call : Cursor) (waited : String) :
    FailsAsChecker (issues file declared call waited) := by
  unfold issues
  split
  · exact .ok _
  · split
    · exact .ok []
    · refine .bind call.node.startLine_fails fun line => ?_
      refine .bind (Wait.isConsecutive_fails _ _ _) fun isConsecutive => ?_
      split
      · exact .ok []
      · exact .ok _

theorem UnverifiedAction.isVerified_fails (assertionLines : List Nat) (site : ActionSite) :
    FailsAsChecker (isVerified file assertionLines site) := by
  unfold isVerified
  split
  · exact .ok true
  · cases site.selector with
    | none => exact .ok _
    | some selector =>
      dsimp only
      split
      · exact .ok _
      · exact .bind (Assertion.hasRelated_fails _ _ _) fun _ => .ok _

theorem UnverifiedAction.issues_fails (assertionLines : List Nat) (sites : List ActionSite) :
    FailsAsChecker (issues file assertionLines sites) := by
  refine .bind (.filterM fun site _ => ?_) fun _ => .ok _
  split
  · exact .ok false
  · exact .bind (isVerified_fails file assertionLines site) fun _ => .ok _

-- ---------------------------------------------------------------------------
-- Checkers
-- ---------------------------------------------------------------------------

namespace Checker

theorem waitIssues_fails (declared : List String) (call : Cursor) :
    FailsAsChecker (waitIssues file declared call) := by
  unfold waitIssues
  split
  · split
    · exact FixedWait.cypressIssues_fails file call _
    · split
      · exact AliasWait.issues_fails file declared call _
      · exact .ok []
  · exact .ok []

theorem issues_fails (checker : Checker) : FailsAsChecker (checker.issues file) := by
  cases checker with
  | asyncReliability =>
    refine .bind (Assertion.lines_fails _) fun assertionLines => ?_
    refine .bind (ActionSite.find_fails _ _) fun sites => ?_
    refine .bind (.bind (.mapM fun call _ => waitIssues_fails file _ call) fun _ => .ok _) fun waits => ?_
    exact .bind (UnverifiedAction.issues_fails file assertionLines sites) fun _ => .ok _
  | pageTimeouts =>
    exact .bind (.mapM fun call _ => FixedWait.playwrightIssues_fails file call) fun _ => .ok _

/-- An analysis finds issues and tests, and rates the file by them. -/
theorem analyze_eq_rated (checker : Checker) : checker.analyze file =
    checker.issues file >>= fun issues => checker.blocks file >>= fun blocks =>
      checker.rated file.path issues blocks := by
  rfl

/-- Whatever a file looks like, it is a missing position or a number that stops a checker. -/
theorem analyze_fails (checker : Checker) : FailsAsChecker (checker.analyze file) := by
  rw [analyze_eq_rated]
  refine .bind (issues_fails file checker) fun issues => ?_
  refine .bind (TestBlock.number_fails _ _) fun blocks => ?_
  obtain ⟨output, houtput, -⟩ := checker.rated_ok file.path issues blocks
  rw [houtput]
  exact .ok output

theorem analyzeAll_fails (checkers : List Checker) :
    FailsAsChecker (checkers.mapM fun checker => do return (checker, ← checker.analyze file)) :=
  .mapM fun checker _ => .bind (analyze_fails file checker) fun output => .ok (checker, output)

/-- Whatever a checker says about a file has a score that can be averaged. -/
theorem hasModestScore_of_analyze {checker : Checker} {output : Output}
    (h : checker.analyze file = .ok output) : output.HasModestScore := by
  rw [analyze_eq_rated] at h
  obtain ⟨issues, -, h⟩ := exists_eq_ok_of_bind h
  obtain ⟨blocks, -, h⟩ := exists_eq_ok_of_bind h
  obtain ⟨rated, hrated, hmodest⟩ := checker.rated_ok file.path issues blocks
  rw [h] at hrated
  cases hrated
  exact hmodest

end Checker

end

end FlakeLint
