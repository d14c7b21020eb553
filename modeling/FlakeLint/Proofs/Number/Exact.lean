-- SUMMARY: Scores and grades read in exact fractions.
import FlakeLint.Score
import Mathlib.Algebra.BigOperators.Group.List.Basic
import Mathlib.Data.Rat.Floor
import Mathlib.Tactic.Linarith
import Mathlib.Tactic.NormNum
import Mathlib.Tactic.Positivity
import Mathlib.Tactic.Ring

/-!
# Exact scores

In exact fractions no operation fails, and the formulas of scores become ordinary
ones: points are added up, brought into range and rounded to tenths. More points
never give a lower score or a worse grade.
-/

namespace FlakeLint

namespace Score

-- ---------------------------------------------------------------------------
-- Points
-- ---------------------------------------------------------------------------

/-- What issues take from the budget. -/
def taken (severities : List Severity) : ℚ :=
  (severities.map fun severity => (severity.penaltyHalves : ℚ) / 2).sum

/-- The points of a file with so many tests, of which `failing` fail. -/
def points (tests failing : Nat) (severities : List Severity) : ℚ :=
  70 * (tests - failing) / tests + 30 - taken severities

/-- The score that goes with so many points. -/
def shown (points : ℚ) : ℚ :=
  (⌊min 100 (max 0 points) * 10 + 1 / 2⌋ : ℚ) / 10

theorem three_halves_le_penalty (severity : Severity) :
    3 / 2 ≤ (severity.penaltyHalves : ℚ) / 2 := by
  cases severity <;> norm_num [Severity.penaltyHalves]

theorem taken_cons (severity : Severity) (severities : List Severity) :
    taken (severity :: severities) = severity.penaltyHalves / 2 + taken severities := by
  unfold taken
  rw [List.map_cons, List.sum_cons]

theorem taken_perm {severities others : List Severity} (h : severities.Perm others) :
    taken severities = taken others :=
  (h.map _).sum_eq

theorem penalty_exact (severities : List Severity) :
    (penalty severities : Except Fault ℚ) = .ok (taken severities) := by
  have hfold (start : ℚ) : severities.foldlM (fun sum severity =>
      Quantity.add sum (Quantity.halves severity.penaltyHalves)) start =
        (.ok (start + taken severities) : Except Fault ℚ) := by
    induction severities generalizing start with
    | nil => exact congrArg Except.ok (add_zero start).symm
    | cons severity severities ih =>
      rw [List.foldlM_cons, taken_cons, ← add_assoc]
      exact ih _
  have hzero : (Quantity.ofInt 0 : ℚ) = 0 := Int.cast_zero
  unfold penalty
  rw [hfold, hzero, zero_add]

theorem larger_exact (x y : ℚ) : Quantity.larger x y = max x y := by
  unfold Quantity.larger
  simp only [Quantity.le, decide_eq_true_eq]
  rcases le_total y x with h | h
  · rw [if_pos h, max_eq_left h]
  · rw [if_pos h, max_eq_right h]
    split
    · next hle => exact le_antisymm h hle
    · rfl

theorem smaller_exact (x y : ℚ) : Quantity.smaller x y = min x y := by
  unfold Quantity.smaller
  simp only [Quantity.le, decide_eq_true_eq]
  rcases le_total x y with h | h
  · rw [if_pos h, min_eq_left h]
  · rw [if_pos h, min_eq_right h]
    split
    · next hle => exact le_antisymm hle h
    · rfl

theorem clamp_exact (x : ℚ) : clamp x = min 100 (max 0 x) := by
  have hzero : (Quantity.ofInt 0 : ℚ) = 0 := Int.cast_zero
  have hhundred : (Quantity.ofInt 100 : ℚ) = 100 := rfl
  unfold clamp
  rw [hzero, hhundred, larger_exact, smaller_exact]

theorem roundTenth_exact (x : ℚ) : Quantity.roundTenth x = .ok ((⌊x * 10 + 1 / 2⌋ : ℚ) / 10) :=
  rfl

/-- The formula of scores in exact fractions. -/
theorem blend_exact (tests failing : Nat) (severities : List Severity) :
    (blend tests failing severities : Except Fault ℚ) =
      .ok (shown (points tests failing severities)) := by
  have hpoints : ((passWeight * ((tests : Int) - failing) : Int) : ℚ) / (tests : Int) +
      (issueBudget : Int) - taken severities = points tests failing severities := by
    unfold points passWeight issueBudget
    push_cast
    rfl
  have hblend : (blend tests failing severities : Except Fault ℚ) =
      Quantity.roundTenth (clamp (((passWeight * ((tests : Int) - failing) : Int) : ℚ) /
        (tests : Int) + (issueBudget : Int) - taken severities)) := by
    unfold blend
    rw [penalty_exact]
    rfl
  rw [hblend, hpoints, clamp_exact, roundTenth_exact]
  rfl

-- ---------------------------------------------------------------------------
-- Rounding
-- ---------------------------------------------------------------------------

theorem shown_mono {x y : ℚ} (h : x ≤ y) : shown x ≤ shown y := by
  unfold shown
  gcongr

/-- Scores go in tenths from 0 to 100. -/
theorem shown_eq_tenths (x : ℚ) : ∃ tenths : Nat, tenths ≤ 1000 ∧ shown x = tenths / 10 := by
  have hlow : 0 ≤ min 100 (max 0 x) := le_min (by norm_num) (le_max_left 0 x)
  have hhigh : min 100 (max 0 x) ≤ 100 := min_le_left _ _
  have hnonneg : 0 ≤ ⌊min 100 (max 0 x) * 10 + 1 / 2⌋ := Int.floor_nonneg.2 (by linarith)
  have hlt : ⌊min 100 (max 0 x) * 10 + 1 / 2⌋ < 1001 := by
    rw [Int.floor_lt]
    push_cast
    linarith
  obtain ⟨tenths, htenths⟩ := Int.eq_ofNat_of_zero_le hnonneg
  refine ⟨tenths, by omega, ?_⟩
  unfold shown
  rw [htenths, Int.cast_natCast]

theorem shown_of_mem_range {x : ℚ} (hlow : 0 ≤ x) (hhigh : x ≤ 100) :
    shown x = (⌊x * 10 + 1 / 2⌋ : ℚ) / 10 := by
  unfold shown
  rw [max_eq_right hlow, min_eq_right hhigh]

/-- A whole number of tenths is its own score. -/
theorem shown_tenths (tenths : Nat) (h : tenths ≤ 1000) : shown (tenths / 10) = tenths / 10 := by
  have hcast : (tenths : ℚ) ≤ 1000 := by exact_mod_cast h
  have hfloor : ⌊(tenths : ℚ) / 10 * 10 + 1 / 2⌋ = (tenths : Int) := by
    rw [Int.floor_eq_iff]
    push_cast
    constructor
    · linarith
    · linarith
  rw [shown_of_mem_range (by positivity) (by linarith), hfloor, Int.cast_natCast]

theorem shown_of_nonpos {x : ℚ} (h : x ≤ 0) : shown x = 0 := by
  have hzero : shown 0 = 0 := by simpa using shown_tenths 0 (by decide)
  obtain ⟨tenths, -, heq⟩ := shown_eq_tenths x
  refine le_antisymm ((shown_mono h).trans_eq hzero) ?_
  rw [heq]
  positivity

/-- A tenth less is less, unless nothing is left anyway. -/
theorem shown_lt {x y : ℚ} (h : x ≤ y - 1 / 10) (hy : y ≤ 100) (hpos : 0 < shown y) :
    shown x < shown y := by
  rcases le_or_gt x 0 with hx | hx
  · rwa [shown_of_nonpos hx]
  · rw [shown_of_mem_range hx.le (by linarith), shown_of_mem_range (by linarith) hy]
    have hfloor : ⌊x * 10 + 1 / 2⌋ ≤ ⌊y * 10 + 1 / 2⌋ - 1 := by
      rw [← Int.floor_sub_one]
      exact Int.floor_mono (by linarith)
    have hcast : (⌊x * 10 + 1 / 2⌋ : ℚ) ≤ ⌊y * 10 + 1 / 2⌋ - 1 := by exact_mod_cast hfloor
    linarith

/-- Where 15 tenths are taken several times, that is what the score loses, as long as it can. -/
theorem shown_hundred_sub (times : Nat) :
    shown (100 - 3 / 2 * (times : ℚ)) = max 0 (100 - 3 / 2 * (times : ℚ)) := by
  rcases le_or_gt (15 * times) 1000 with h | h
  · have htenths : 100 - 3 / 2 * (times : ℚ) = ((1000 - 15 * times : Nat) : ℚ) / 10 := by
      push_cast [h]
      ring
    rw [htenths, shown_tenths _ (by omega), max_eq_right (by positivity)]
  · have hcast : (1000 : ℚ) < 15 * times := by exact_mod_cast h
    rw [shown_of_nonpos (by linarith), max_eq_left (by linarith)]

end Score

-- ---------------------------------------------------------------------------
-- Grades
-- ---------------------------------------------------------------------------

/-- How many grades are worse. A grade from elsewhere is no better than any. -/
def Grade.standing : Grade → Nat
  | .excellent => 4
  | .good => 3
  | .fair => 2
  | .moderateRisk => 1
  | .highRisk | .other _ => 0

namespace Score

/-- A grade stands as high as the number of thresholds that are reached. -/
theorem standing_grade (score : ℚ) :
    (grade score).standing = thresholds.countP fun threshold => (threshold.1 : ℚ) ≤ score := by
  have hle (n : Int) : Quantity.le (Quantity.ofInt n) score = decide ((n : ℚ) ≤ score) := rfl
  unfold grade thresholds
  simp only [hle, Int.cast_ofNat, List.find?_cons, List.countP_cons, List.countP_nil]
  by_cases h40 : 40 ≤ score
  · by_cases h60 : 60 ≤ score
    · by_cases h75 : 75 ≤ score
      · by_cases h90 : 90 ≤ score <;> simp [h40, h60, h75, h90, Grade.standing]
      · have h90 : ¬ 90 ≤ score := by linarith
        simp [h40, h60, h75, h90, Grade.standing]
    · have h75 : ¬ 75 ≤ score := by linarith
      have h90 : ¬ 90 ≤ score := by linarith
      simp [h40, h60, h75, h90, Grade.standing]
  · have h60 : ¬ 60 ≤ score := by linarith
    have h75 : ¬ 75 ≤ score := by linarith
    have h90 : ¬ 90 ≤ score := by linarith
    simp [h40, h60, h75, h90, Grade.standing]

theorem standing_grade_mono {x y : ℚ} (h : x ≤ y) :
    (grade x).standing ≤ (grade y).standing := by
  rw [standing_grade, standing_grade]
  refine List.countP_mono_left fun threshold _ hreached => ?_
  simp only [decide_eq_true_eq] at hreached ⊢
  exact hreached.trans h

end Score

end FlakeLint
