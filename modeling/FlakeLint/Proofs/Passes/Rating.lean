-- SUMMARY: More issues make a score worse, and their order does not matter.
import FlakeLint.Checker
import FlakeLint.Proofs.Number.Exact
import FlakeLint.Proofs.Passes.Buckets

/-!
# Ratings

An issue counts twice: it is taken from the budget, and it makes the test that it is
charged to fail. Both depend on which issues there are, not on their order, and both
only grow with a further issue. In exact fractions the score falls accordingly.
-/

namespace FlakeLint

-- ---------------------------------------------------------------------------
-- Failing tests
-- ---------------------------------------------------------------------------

/-- A test fails if some issue is charged to it. -/
theorem TestBlock.failingTests_buckets (tests : Nat) (anyIssue : Bool) (blocks : List TestBlock)
    (issues : List Issue) :
    Score.failingTests tests anyIssue (some (buckets blocks issues)) =
      (List.range tests).countP fun i : Nat =>
        issues.any fun issue => indexFor? blocks issue.line == some (i : Int) := by
  have hcharged (i : Nat) : (!(((buckets blocks issues).get? (Int.ofNat i)).getD []).isEmpty) =
      issues.any fun issue => indexFor? blocks issue.line == some (i : Int) := by
    have hbucket : ((buckets blocks issues).get? (Int.ofNat i)).getD [] =
        issues.filter fun issue => indexFor? blocks issue.line == some (i : Int) :=
      getD_get?_bucketsBy Issue.line blocks issues i
    rw [hbucket, Bool.eq_iff_iff, Bool.not_eq_true', List.isEmpty_eq_false_iff_exists_mem,
      List.any_eq_true]
    simp only [List.mem_filter]
  unfold Score.failingTests
  simp only [hcharged]
  rw [List.countP_eq_length_filter]

/-- The tests that fail go on failing with further issues. -/
theorem TestBlock.failingTests_mono {issues others : List Issue} (h : issues ⊆ others)
    (tests : Nat) (anyIssue anyOther : Bool) (blocks : List TestBlock) :
    Score.failingTests tests anyIssue (some (buckets blocks issues)) ≤
      Score.failingTests tests anyOther (some (buckets blocks others)) := by
  rw [failingTests_buckets, failingTests_buckets]
  refine List.countP_mono_left fun i _ hfails => ?_
  obtain ⟨issue, hissue, hcharged⟩ := List.any_eq_true.1 hfails
  exact List.any_eq_true.2 ⟨issue, h hissue, hcharged⟩

namespace Checker

-- ---------------------------------------------------------------------------
-- Points
-- ---------------------------------------------------------------------------

/-- How many of the tests fail. A file without tests counts as having one. -/
def failing (issues : List Issue) (blocks : List TestBlock) : Nat :=
  Score.failingTests (max 1 blocks.length) (!(issues.map Issue.severity).isEmpty)
    (some (TestBlock.buckets blocks issues))

/-- The points of a file with these issues and tests. -/
def points (issues : List Issue) (blocks : List TestBlock) : ℚ :=
  Score.points (max 1 blocks.length) (failing issues blocks) (issues.map Issue.severity)

theorem score_exact (issues : List Issue) (blocks : List TestBlock) :
    (score issues blocks : Except Fault ℚ) = .ok (Score.shown (points issues blocks)) :=
  Score.blend_exact _ _ _

variable {issues others : List Issue} {issue : Issue}

theorem failing_perm (h : issues.Perm others) (blocks : List TestBlock) :
    failing issues blocks = failing others blocks :=
  Nat.le_antisymm (TestBlock.failingTests_mono h.subset _ _ _ _)
    (TestBlock.failingTests_mono h.symm.subset _ _ _ _)

theorem points_perm (h : issues.Perm others) (blocks : List TestBlock) :
    points issues blocks = points others blocks := by
  unfold points Score.points
  rw [failing_perm h, Score.taken_perm (h.map Issue.severity)]

theorem points_nil (blocks : List TestBlock) : points [] blocks = 100 := by
  have hnone : failing [] blocks = 0 := by
    unfold failing
    rw [TestBlock.failingTests_buckets, List.countP_eq_zero]
    exact fun _ _ => Bool.false_ne_true
  have htests : ((max 1 blocks.length : Nat) : ℚ) ≠ 0 := by
    rw [Nat.cast_ne_zero]
    omega
  unfold points Score.points
  rw [hnone, Nat.cast_zero, sub_zero, mul_div_cancel_right₀ _ htests]
  norm_num [Score.taken]

/-- A further issue takes one and a half points at least. -/
theorem points_cons_le (issue : Issue) (issues : List Issue) (blocks : List TestBlock) :
    points (issue :: issues) blocks ≤ points issues blocks - 3 / 2 := by
  have hfailing : (failing issues blocks : ℚ) ≤ failing (issue :: issues) blocks := by
    exact_mod_cast TestBlock.failingTests_mono (List.subset_cons_self issue issues) _ _ _ _
  have htaken := Score.three_halves_le_penalty issue.severity
  have hshare : 70 * (((max 1 blocks.length : Nat) : ℚ) - failing (issue :: issues) blocks) /
      (max 1 blocks.length : Nat) ≤
        70 * (((max 1 blocks.length : Nat) : ℚ) - failing issues blocks) /
          (max 1 blocks.length : Nat) := by
    gcongr
  unfold points Score.points
  rw [List.map_cons, Score.taken_cons]
  linarith

theorem points_le (issues : List Issue) (blocks : List TestBlock) :
    points issues blocks ≤ 100 - 3 / 2 * (issues.length : ℚ) := by
  induction issues with
  | nil =>
    rw [points_nil]
    norm_num
  | cons issue issues ih =>
    have hcons := points_cons_le issue issues blocks
    rw [List.length_cons]
    push_cast
    linarith

-- ---------------------------------------------------------------------------
-- A further issue
-- ---------------------------------------------------------------------------

/-- With a further issue, wherever it comes, a file gets a lower score as long as there is something to
lose, and no better grade. In which order the issues come does not matter for the score. -/
theorem score_insert (before after : List Issue) (issue : Issue) (blocks : List TestBlock) :
    ∃ old new : ℚ,
      score (before ++ after) blocks = .ok old ∧
      score (before ++ issue :: after) blocks = .ok new ∧
      new ≤ old ∧ (0 < old → new < old) ∧
      (Score.grade new).standing ≤ (Score.grade old).standing ∧
      ∀ reordered : List Issue, reordered.Perm (before ++ after) →
        score reordered blocks = .ok old := by
  have hless : points (before ++ issue :: after) blocks ≤
      points (before ++ after) blocks - 3 / 2 := by
    rw [points_perm List.perm_middle]
    exact points_cons_le issue (before ++ after) blocks
  have hhundred : points (before ++ after) blocks ≤ 100 := by
    have hbound := points_le (before ++ after) blocks
    have hlength : (0 : ℚ) ≤ (before ++ after).length := Nat.cast_nonneg _
    linarith
  have hmono : Score.shown (points (before ++ issue :: after) blocks) ≤
      Score.shown (points (before ++ after) blocks) := Score.shown_mono (by linarith)
  refine ⟨_, _, score_exact _ _, score_exact _ _, hmono, ?_, Score.standing_grade_mono hmono, ?_⟩
  · exact Score.shown_lt (by linarith) hhundred
  · intro reordered hperm
    rw [score_exact, points_perm hperm]

end Checker

namespace Sample

def blocks : List TestBlock := [⟨0, 1, 4⟩, ⟨1, 6, 9⟩]

end Sample

/-- As a second test fails, a score of 60.5 falls. -/
theorem Checker.score_insert_second_test :
    let first := Sample.issueOn (some 2) .medium
    let loose := Sample.issueOn none .low
    ∃ old new : ℚ, old = 121 / 2 ∧ 0 < old ∧
      Checker.score [first, loose] Sample.blocks = .ok old ∧
      Checker.score [first, Sample.issueOn (some 7) .high, loose] Sample.blocks = .ok new ∧
      new < old ∧ (Score.grade new).standing ≤ (Score.grade old).standing ∧
      [loose, first].Perm [first, loose] ∧
      Checker.score [loose, first] Sample.blocks = .ok old := by
  intro first loose
  obtain ⟨old, new, hold, hnew, -, hless, hgrade, hreordered⟩ :=
    Checker.score_insert [first] [loose] (Sample.issueOn (some 7) .high) Sample.blocks
  have hvalue : (Checker.score [first, loose] Sample.blocks : Except Fault ℚ) =
      .ok (121 / 2) := by decide +kernel
  have hsame : old = 121 / 2 := Except.ok.inj (hold.symm.trans hvalue)
  have hpos : 0 < old := by
    rw [hsame]
    norm_num
  have hperm : [loose, first].Perm [first, loose] := .swap first loose []
  exact ⟨old, new, hsame, hpos, hold, hnew, hless hpos, hgrade, hperm, hreordered _ hperm⟩

end FlakeLint
