-- SUMMARY: The mean of scores in exact fractions: between the lowest and the highest, in any order, never lower for more.
import FlakeLint.Proofs.Number.Exact
import Mathlib.Algebra.Order.BigOperators.Group.List
import Mathlib.Data.Finset.Max
import Mathlib.Tactic.GCongr

/-!
# Mean scores

A mean lies between the lowest and the highest score, but rounding it half up could lead
out of that range. It does not, because scores go in tenths: a bound that is a whole
number of tenths is kept by rounding to tenths. Grades only depend on which thresholds
are reached, so they stay in range with the mean.
-/

namespace FlakeLint.Score

-- ---------------------------------------------------------------------------
-- Rounding to tenths
-- ---------------------------------------------------------------------------

/-- The value rounded half up to a whole number of tenths. -/
def toTenth (x : ℚ) : ℚ :=
  (⌊x * 10 + 1 / 2⌋ : ℚ) / 10

theorem toTenth_mono {x y : ℚ} (h : x ≤ y) : toTenth x ≤ toTenth y := by
  unfold toTenth
  gcongr

/-- A whole number of tenths is not changed by rounding. -/
theorem toTenth_tenths (tenths : Nat) : toTenth (tenths / 10) = tenths / 10 := by
  have hfloor : ⌊(tenths : ℚ) / 10 * 10 + 1 / 2⌋ = (tenths : Int) := by
    apply Int.floor_eq_iff.2
    push_cast
    constructor
    · linarith
    · linarith
  unfold toTenth
  rw [hfloor, Int.cast_natCast]

-- ---------------------------------------------------------------------------
-- Means
-- ---------------------------------------------------------------------------

/-- What a score counts for; a missing one counts as 100. -/
def counted (score : Option ℚ) : ℚ :=
  score.getD 100

/-- The score is missing or a whole number of tenths from 0 to 100. -/
def GoesInTenths (score : Option ℚ) : Prop :=
  ∀ x, score = some x → ∃ tenths : Nat, tenths ≤ 1000 ∧ x = tenths / 10

def mean (scores : List (Option ℚ)) : ℚ :=
  (scores.map counted).sum / scores.length

def roundedMean (scores : List (Option ℚ)) : ℚ :=
  max 0 (toTenth (mean scores))

theorem exists_tenths_of_goesInTenths {score : Option ℚ} (h : GoesInTenths score) :
    ∃ tenths : Nat, counted score = tenths / 10 := by
  cases score with
  | none =>
    refine ⟨1000, ?_⟩
    norm_num [counted]
  | some x =>
    obtain ⟨tenths, -, hx⟩ := h x rfl
    exact ⟨tenths, hx⟩

/-- In exact fractions an average has a value, the rounded mean. -/
theorem average_exact {scores : List (Option ℚ)} (h : scores ≠ []) :
    (average scores : Except Fault ℚ) = .ok (roundedMean scores) := by
  have hfold (start : ℚ) : scores.foldlM
      (fun sum score => Quantity.add sum (score.getD (Quantity.halves 200))) start =
        (.ok (start + (scores.map counted).sum) : Except Fault ℚ) := by
    clear h
    induction scores generalizing start with
    | nil => exact congrArg Except.ok (add_zero start).symm
    | cons score scores ih =>
      have hscore : score.getD (Quantity.halves 200) = counted score := by
        cases score with
        | none => norm_num [counted, Quantity.halves]
        | some x => rfl
      rw [List.foldlM_cons, List.map_cons, List.sum_cons, ← add_assoc, hscore]
      exact ih _
  have hzero : (Quantity.ofInt 0 : ℚ) = 0 := Int.cast_zero
  have hleast : (Quantity.halves 0 : ℚ) = 0 := by norm_num [Quantity.halves]
  have hlength : (Quantity.ofInt (scores.length : Int) : ℚ) = scores.length := Int.cast_natCast _
  cases hscores : scores with
  | nil => exact absurd hscores h
  | cons first rest =>
    rw [← hscores]
    have haverage : (average scores : Except Fault ℚ) = (do
        let sum ← scores.foldlM
          (fun sum score => Quantity.add sum (score.getD (Quantity.halves 200))) (Quantity.ofInt 0)
        let mean ← Quantity.divide sum (Quantity.ofInt (scores.length : Int))
        return Quantity.larger (Quantity.halves 0) (← Quantity.roundTenth mean)) := by
      rw [hscores]
      rfl
    rw [haverage, hfold, hzero, hleast, hlength, zero_add]
    exact congrArg Except.ok (larger_exact _ _)

section

variable {scores : List (Option ℚ)} (hne : scores ≠ [])
include hne

theorem length_cast_pos : (0 : ℚ) < scores.length := by
  exact_mod_cast List.length_pos_iff.2 hne

theorem le_mean {low : ℚ} (h : ∀ score ∈ scores, low ≤ counted score) : low ≤ mean scores := by
  have hsum : (scores.map counted).length • low ≤ (scores.map counted).sum := by
    apply List.card_nsmul_le_sum
    intro x hx
    obtain ⟨score, hscore, rfl⟩ := List.mem_map.1 hx
    exact h score hscore
  rw [List.length_map, nsmul_eq_mul, mul_comm] at hsum
  exact (le_div_iff₀ (length_cast_pos hne)).2 hsum

theorem mean_le {high : ℚ} (h : ∀ score ∈ scores, counted score ≤ high) : mean scores ≤ high := by
  have hsum : (scores.map counted).sum ≤ (scores.map counted).length • high := by
    apply List.sum_le_card_nsmul
    intro x hx
    obtain ⟨score, hscore, rfl⟩ := List.mem_map.1 hx
    exact h score hscore
  rw [List.length_map, nsmul_eq_mul, mul_comm] at hsum
  exact (div_le_iff₀ (length_cast_pos hne)).2 hsum

/-- Some score is the lowest and some score is the highest. -/
theorem exists_extremes : ∃ lowest ∈ scores, ∃ highest ∈ scores, ∀ score ∈ scores,
    counted lowest ≤ counted score ∧ counted score ≤ counted highest := by
  have hsome : scores.toFinset.Nonempty := List.toFinset_nonempty_iff _ |>.2 hne
  obtain ⟨lowest, hlowest, hlow⟩ := Finset.exists_min_image scores.toFinset counted hsome
  obtain ⟨highest, hhighest, hhigh⟩ := Finset.exists_max_image scores.toFinset counted hsome
  refine ⟨lowest, List.mem_toFinset.1 hlowest, highest, List.mem_toFinset.1 hhighest, ?_⟩
  intro score hscore
  exact ⟨hlow score (List.mem_toFinset.2 hscore), hhigh score (List.mem_toFinset.2 hscore)⟩

end

/-- A bound that goes in tenths is kept by rounding. -/
theorem le_roundedMean {scores : List (Option ℚ)} {lowest : Option ℚ} (h : GoesInTenths lowest)
    (hmean : counted lowest ≤ mean scores) : counted lowest ≤ roundedMean scores := by
  obtain ⟨tenths, htenths⟩ := exists_tenths_of_goesInTenths h
  apply le_max_of_le_right
  rw [htenths] at hmean ⊢
  exact (toTenth_tenths tenths).symm.trans_le (toTenth_mono hmean)

theorem roundedMean_le {scores : List (Option ℚ)} {highest : Option ℚ} (h : GoesInTenths highest)
    (hmean : mean scores ≤ counted highest) : roundedMean scores ≤ counted highest := by
  obtain ⟨tenths, htenths⟩ := exists_tenths_of_goesInTenths h
  rw [htenths] at hmean ⊢
  apply max_le
  · positivity
  · exact (toTenth_mono hmean).trans_eq (toTenth_tenths tenths)

theorem roundedMean_perm {scores others : List (Option ℚ)} (h : scores.Perm others) :
    roundedMean scores = roundedMean others := by
  unfold roundedMean mean
  rw [(h.map counted).sum_eq, h.length_eq]

theorem roundedMean_raise {score raised : Option ℚ} (h : counted score ≤ counted raised)
    (before after : List (Option ℚ)) :
    roundedMean (before ++ score :: after) ≤ roundedMean (before ++ raised :: after) := by
  have hlength : (before ++ raised :: after).length = (before ++ score :: after).length := by simp
  apply max_le_max_left
  apply toTenth_mono
  unfold mean
  rw [hlength]
  apply div_le_div_of_nonneg_right _ (Nat.cast_nonneg _)
  simp only [List.map_append, List.map_cons, List.sum_append, List.sum_cons]
  gcongr

-- ---------------------------------------------------------------------------
-- Averages
-- ---------------------------------------------------------------------------

/-- The average of scores that go in tenths lies between the lowest and the highest of them, and its grade
between the worst and the best of theirs. It is the same in any order, and neither it nor its grade gets
worse when a score is raised. -/
theorem average_between_extremes {scores : List (Option ℚ)} (hne : scores ≠ [])
    (h : ∀ score ∈ scores, GoesInTenths score) :
    ∃ overall, average scores = .ok overall ∧
      (∃ lowest ∈ scores, ∃ highest ∈ scores,
        (∀ score ∈ scores, counted lowest ≤ counted score ∧ counted score ≤ counted highest) ∧
        counted lowest ≤ overall ∧ overall ≤ counted highest) ∧
      (∃ worst ∈ scores, ∃ best ∈ scores,
        (∀ score ∈ scores, (grade (counted worst)).standing ≤ (grade (counted score)).standing ∧
          (grade (counted score)).standing ≤ (grade (counted best)).standing) ∧
        (grade (counted worst)).standing ≤ (grade overall).standing ∧
        (grade overall).standing ≤ (grade (counted best)).standing) ∧
      (∀ others, scores.Perm others → average others = .ok overall) ∧
      ∀ before score after raised, scores = before ++ score :: after →
        counted score ≤ counted raised →
        ∃ higher, average (before ++ raised :: after) = .ok higher ∧ overall ≤ higher ∧
          (grade overall).standing ≤ (grade higher).standing := by
  obtain ⟨lowest, hlowest, highest, hhighest, hextremes⟩ := exists_extremes hne
  have hlow : counted lowest ≤ roundedMean scores :=
    le_roundedMean (h lowest hlowest) (le_mean hne fun score hscore => (hextremes score hscore).1)
  have hhigh : roundedMean scores ≤ counted highest :=
    roundedMean_le (h highest hhighest) (mean_le hne fun score hscore => (hextremes score hscore).2)
  refine ⟨roundedMean scores, average_exact hne, ?_, ?_, ?_, ?_⟩
  · exact ⟨lowest, hlowest, highest, hhighest, hextremes, hlow, hhigh⟩
  · refine ⟨lowest, hlowest, highest, hhighest, ?_, standing_grade_mono hlow,
      standing_grade_mono hhigh⟩
    intro score hscore
    obtain ⟨hge, hle⟩ := hextremes score hscore
    exact ⟨standing_grade_mono hge, standing_grade_mono hle⟩
  · intro others hperm
    rw [average_exact (fun hnil => hne (List.perm_nil.1 (hnil ▸ hperm))), roundedMean_perm hperm]
  · intro before score after raised hscores hraised
    have hle := roundedMean_raise hraised before after
    rw [← hscores] at hle
    exact ⟨_, average_exact (by simp), hle, standing_grade_mono hle⟩

/-- Two scores and a missing one average to 62.2, which is fair, between high risk and excellent. Raising
the lowest of them raises the average. -/
theorem average_of_mixed_scores :
    let scores : List (Option ℚ) := [some 24, none, some (125 / 2)]
    (∀ score ∈ scores, GoesInTenths score) ∧
    average scores = .ok (311 / 5) ∧
    average [none, some (125 / 2), some (24 : ℚ)] = .ok (311 / 5) ∧
    grade (311 / 5 : ℚ) = .fair ∧
    ∃ higher, average [some (90 : ℚ), none, some (125 / 2)] = .ok higher ∧ 311 / 5 ≤ higher := by
  intro scores
  have htenths : ∀ score ∈ scores, GoesInTenths score := by
    have hlow : GoesInTenths (some 24) := by
      rintro _ ⟨⟩
      exact ⟨240, by norm_num, by norm_num⟩
    have hmissing : GoesInTenths none := nofun
    have hmiddle : GoesInTenths (some (125 / 2)) := by
      rintro _ ⟨⟩
      exact ⟨625, by norm_num, by norm_num⟩
    simpa [scores] using ⟨hlow, hmissing, hmiddle⟩
  obtain ⟨overall, haverage, -, -, hperm, hraise⟩ := average_between_extremes (by simp [scores]) htenths
  have hvalue : overall = 311 / 5 := by
    rw [average_exact (by simp [scores])] at haverage
    rw [← Except.ok.inj haverage]
    norm_num [scores, roundedMean, toTenth, mean, counted]
  subst hvalue
  obtain ⟨higher, hhigher, hle, -⟩ := hraise [] (some 24) [none, some (125 / 2)] (some 90) rfl
    (by norm_num [counted])
  have hrotated : scores.Perm [none, some (125 / 2), some 24] := (List.perm_append_singleton _ _).symm
  exact ⟨htenths, haverage, hperm _ hrotated,
    by norm_num [grade, thresholds, Quantity.le, Quantity.ofInt], higher, hhigher, hle⟩

end FlakeLint.Score
