-- SUMMARY: Scores computed on numbers: they always have a value, and it can be written.
import FlakeLint.Checker
import FlakeLint.Codebase
import FlakeLint.Proofs.Number.Rounding
import FlakeLint.Proofs.Passes.Issues
import FlakeLint.Proofs.Traversal

/-!
# Scores on numbers

Numbers can refuse an operation where a result would be infinite. Scores stay far
from that: penalties add up to at most `2 ^ 64`, where a further penalty is lost
in rounding, and what comes after is clamped.
-/

namespace FlakeLint

open Double (IsAtMost)

namespace Double

variable {d : Double} {a : ℚ} {k : Nat}

theorem IsAtMost.exists_finite (h : d.IsAtMost a) : ∃ s m e, d = finite s m e := by
  obtain ⟨q, hq, -⟩ := h
  match d with
  | .finite s m e => exact ⟨s, m, e, rfl⟩

/-- A bound that is a whole number also holds of the whole number below. -/
theorem floor?_of_isAtMost (h : d.IsAtMost (2 ^ k)) :
    ∃ n : Int, d.floor? = some n ∧ n.natAbs ≤ 2 ^ k := by
  obtain ⟨q, hq, hle⟩ := h
  match d with
  | .finite s m e =>
    refine ⟨_, rfl, ?_⟩
    simp only [Nat.pow_eq]
    rw [value_finite, Option.some_inj] at hq
    rw [← hq, two_zpow_eq, ← mul_div_assoc, abs_le] at hle
    have hpos : (0 : ℚ) < 2 ^ (-e).toNat := by positivity
    have hlow : -(2 ^ k : Int) * (2 ^ (-e).toNat : Nat) ≤ signed s m * (2 ^ e.toNat : Nat) := by
      have := (le_div_iff₀ hpos).1 hle.1
      exact_mod_cast this
    have hhigh : signed s m * (2 ^ e.toNat : Nat) ≤ (2 ^ k : Int) * (2 ^ (-e).toNat : Nat) := by
      have := (div_le_iff₀ hpos).1 hle.2
      exact_mod_cast this
    have hden : (0 : Int) < (2 ^ (-e).toNat : Nat) := by positivity
    rw [Int.fdiv_eq_ediv_of_nonneg _ hden.le]
    have hge := (Int.le_ediv_iff_mul_le hden).2 hlow
    have hlt := Int.ediv_le_of_le_mul hden hhigh
    have hcast : ((2 ^ k : Nat) : Int) = 2 ^ k := by push_cast; rfl
    omega

theorem halves_isAtMost (n : Int) (hk : k ≤ 1023) (h : |(n : ℚ)| / 2 ≤ 2 ^ k) :
    (ofQuotient n 2).IsAtMost (2 ^ k) := by
  apply ofQuotient_isAtMost (by decide) hk
  have hpow : (0 : ℚ) < 2 ^ k := by positivity
  push_cast
  linarith

end Double

namespace Number

variable {d : Double} {a : ℚ} {i k : Nat}

theorem intToDouble_ok {n : Int} (hk : k ≤ 1023) (h : |(n : ℚ)| ≤ 2 ^ k) :
    ∃ d, intToDouble n = .ok d ∧ d.IsAtMost (2 ^ k) := by
  have hpow : (0 : ℚ) < 2 ^ k := by positivity
  have hbound := Double.ofInt_isAtMost (n := n) hk (by linarith)
  obtain ⟨s, m, e, hd⟩ := hbound.exists_finite
  refine ⟨Double.ofInt n, ?_, hbound⟩
  unfold intToDouble
  rw [hd]

theorem combine_real_int {x y : Double} {n : Int} (onInts : Int → Int → Int)
    (onDoubles : Double → Double → Double) (h : intToDouble n = .ok y) :
    combine onInts onDoubles (.real x) (.int n) = .ok (.real (onDoubles x y)) := by
  simp only [combine, toDouble, h]
  rfl

theorem floor_real_ok (h : d.IsAtMost (2 ^ k)) :
    ∃ n : Int, Quantity.floor (Number.real d) = .ok n ∧ |(n : ℚ)| ≤ 2 ^ k := by
  obtain ⟨n, hn, hle⟩ := Double.floor?_of_isAtMost h
  obtain ⟨s, m, e, rfl⟩ := h.exists_finite
  refine ⟨n, ?_, ?_⟩
  · change Except.ok ((Double.finite s m e).floor?.getD 0) = _
    rw [hn]
    rfl
  · rw [← Int.cast_abs, ← Nat.cast_natAbs]
    exact_mod_cast hle

theorem divide_int_ok {m n : Int} (hn : 0 < n) (hk : k ≤ 1023)
    (h : |(m : ℚ)| ≤ 2 ^ k * n) :
    ∃ d, Quantity.divide (Number.int m) (.int n) = .ok (.real d) ∧ d.IsAtMost (2 ^ k) := by
  have hpos : (0 : ℚ) < n := by exact_mod_cast hn
  have hpow : (0 : ℚ) < 2 ^ k := by positivity
  have hbound : (Double.ofQuotient (if n < 0 then -m else m) n.natAbs).IsAtMost (2 ^ k) := by
    rw [if_neg (not_lt.2 hn.le)]
    apply Double.ofQuotient_isAtMost (Int.natAbs_pos.2 hn.ne') hk
    rw [Nat.cast_natAbs, Int.cast_abs, abs_of_pos hpos, div_lt_iff₀ hpos]
    nlinarith
  obtain ⟨s, e, f, hd⟩ := hbound.exists_finite
  refine ⟨_, ?_, hbound⟩
  change Number.divide (.int m) (.int n) = _
  unfold divide
  dsimp only
  rw [hd]

/-- Rounding to tenths succeeds, and cannot make a number larger than four times its bound. -/
theorem roundTenth_real_ok (hd : d.IsAtMost (2 ^ i)) (hi : i ≤ 1000) :
    ∃ c, Quantity.roundTenth (Number.real d) = .ok (.real c) ∧ c.IsAtMost (2 ^ (i + 2)) := by
  have hpow : (1 : ℚ) ≤ 2 ^ i := one_le_pow₀ one_le_two
  obtain ⟨ten, hten, hten'⟩ := intToDouble_ok (n := 10) (k := 4) (by decide) (by norm_num)
  have hmul := Double.mul_isAtMost (k := i + 4) hd hten' (by omega) (by
    rw [pow_add]
    nlinarith)
  have hhalf := Double.halves_isAtMost (k := 0) 1 (by decide) (by norm_num)
  have hadd := Double.add_isAtMost (k := i + 5) hmul hhalf (by omega) (by
    rw [pow_add, pow_add]
    nlinarith)
  obtain ⟨n, hn, hle⟩ := floor_real_ok hadd
  obtain ⟨c, hc, hc'⟩ := divide_int_ok (m := n) (n := 10) (k := i + 2) (by decide) (by omega) (by
    rw [pow_add] at hle ⊢
    push_cast
    nlinarith)
  refine ⟨c, ?_, hc'⟩
  have htimes : Quantity.mul (Number.real d) (Quantity.ofInt 10) = .ok (.real (d.mul ten)) :=
    combine_real_int _ _ hten
  have hplus : Quantity.add (Number.real (d.mul ten)) (Quantity.halves 1) =
      .ok (.real ((d.mul ten).add (Double.ofQuotient 1 2))) := rfl
  unfold Quantity.roundTenth
  simp only [htimes, hplus, hn, bind, Except.bind]
  exact hc

end Number

/-! ## Scores of files -/

namespace Score

/-- The number is a double that is far from the largest ones. -/
def IsModest (score : Number) : Prop :=
  ∃ d, score = .real d ∧ d.IsAtMost (2 ^ 9)

/-- A sum of modest numbers stays at or below `2 ^ 64`: there, what is added is less than half a step. -/
def IsBoundedSum (sum : Number) : Prop :=
  sum = .int 0 ∨ ∃ d, sum = .real d ∧ d.IsAtMost (2 ^ 64)

theorem add_isBoundedSum {sum : Number} (h : IsBoundedSum sum) {d : Double}
    (hd : d.IsAtMost (2 ^ 9)) :
    ∃ c, Quantity.add sum (.real d) = .ok (.real c) ∧ c.IsAtMost (2 ^ 64) := by
  rcases h with rfl | ⟨x, rfl, hx⟩
  · obtain ⟨zero, hzero, hzero'⟩ := Number.intToDouble_ok (n := 0) (k := 0) (by decide) (by simp)
    refine ⟨zero.add d, ?_, Double.add_isAtMost hzero' hd (by decide) (by norm_num)⟩
    change Number.combine _ _ (.int 0) (.real d) = _
    simp only [Number.combine, Number.toDouble, hzero]
    rfl
  · exact ⟨x.add d, rfl, Double.add_isAtMost hx hd (by decide) (by norm_num)⟩

theorem halves_isModest (severity : Severity) :
    (Double.ofQuotient severity.penaltyHalves 2).IsAtMost (2 ^ 9) := by
  apply Double.halves_isAtMost _ (by decide)
  cases severity <;> norm_num [Severity.penaltyHalves]

theorem penalty_ok (severities : List Severity) :
    ∃ sum, (penalty severities : Except Fault Number) = .ok sum ∧ IsBoundedSum sum := by
  apply foldlM_invariant (.inl rfl)
  intro severity _ sum hsum
  obtain ⟨c, hc, hc'⟩ := add_isBoundedSum hsum (halves_isModest severity)
  exact ⟨_, hc, .inr ⟨c, rfl, hc'⟩⟩

theorem clamp_cases (x : Number) :
    clamp x = .int 0 ∨ clamp x = .int 100 ∨
      clamp x = x ∧ (Number.int 0).le x ∧ x.le (.int 100) := by
  change Quantity.smaller (Number.int 100) (Quantity.larger (Number.int 0) x) = _ ∨
    Quantity.smaller (Number.int 100) (Quantity.larger (Number.int 0) x) = _ ∨
    Quantity.smaller (Number.int 100) (Quantity.larger (Number.int 0) x) = _ ∧ _
  unfold Quantity.larger
  split
  · exact .inl (by decide)
  · split
    · next hlow =>
      unfold Quantity.smaller
      split
      · exact .inr (.inl rfl)
      · split
        · next hhigh => exact .inr (.inr ⟨rfl, hlow, hhigh⟩)
        · exact .inr (.inl rfl)
    · exact .inl (by decide)

/-- What lies between 0 and 100 is a number of that size. -/
theorem isAtMost_of_between {d : Double} (hlow : (Number.int 0).le (.real d))
    (hhigh : (Number.real d).le (.int 100)) : d.IsAtMost (2 ^ 7) := by
  match d with
  | .nan => cases hhigh
  | .infinite true => cases hlow
  | .infinite false => cases hhigh
  | .finite s m e =>
    have hpos : (0 : ℚ) < 2 ^ (-e).toNat := by positivity
    have hge : 0 ≤ Double.signed s m * 2 ^ e.toNat := by
      by_contra hneg
      rw [not_le] at hneg
      have hcompare : (Double.finite s m e).compareInt? 0 = some .lt := by
        simp only [Double.compareInt?, Int.pow_eq, zero_mul, compare_lt_iff_lt.2 hneg]
      simp [Number.le, Number.compare?, hcompare] at hlow
    have hle : Double.signed s m * 2 ^ e.toNat ≤ 100 * (2 ^ (-e).toNat : Nat) := by
      by_contra hgt
      rw [not_le] at hgt
      have hcompare : (Double.finite s m e).compareInt? 100 = some .gt := by
        simp only [Double.compareInt?, Int.pow_eq, Nat.pow_eq, compare_gt_iff_gt.2 hgt]
      simp [Number.le, Number.compare?, hcompare] at hhigh
    refine ⟨_, Double.value_finite s m e, ?_⟩
    have hgeq : (0 : ℚ) ≤ Double.signed s m * 2 ^ e.toNat := by exact_mod_cast hge
    have hleq : (Double.signed s m * 2 ^ e.toNat : ℚ) ≤ 100 * 2 ^ (-e).toNat := by
      exact_mod_cast hle
    rw [Double.two_zpow_eq, ← mul_div_assoc, abs_of_nonneg (by positivity), div_le_iff₀ hpos]
    linarith

/-- Rounding a clamped number to tenths gives a modest number. -/
theorem roundTenth_clamp_ok {d : Double} :
    ∃ score, Quantity.roundTenth (clamp (Number.real d)) = .ok score ∧ IsModest score := by
  rcases clamp_cases (.real d) with h | h | ⟨h, hlow, hhigh⟩
  · rw [h]
    refine ⟨.real (.finite false 0 (-1074)), by decide +kernel, _, rfl, ?_⟩
    exact Double.finite_isAtMost (by norm_num)
  · rw [h]
    refine ⟨.real (.finite false 7036874417766400 (-46)), by decide +kernel, _, rfl, ?_⟩
    exact Double.finite_isAtMost (by norm_num)
  · rw [h]
    obtain ⟨c, hc, hle⟩ := Number.roundTenth_real_ok (isAtMost_of_between hlow hhigh) (by decide)
    exact ⟨_, hc, c, rfl, hle⟩

theorem failingTests_le {β : Type} (tests : Nat) (anyIssue : Bool)
    (buckets : Option (Table Int (List β))) : failingTests tests anyIssue buckets ≤ tests := by
  unfold failingTests
  split
  · split <;> omega
  · exact (List.length_filter_le _ _).trans_eq List.length_range

theorem blend_ok {tests failing : Nat} (htests : 0 < tests) (hfailing : failing ≤ tests)
    (severities : List Severity) :
    ∃ score, (blend tests failing severities : Except Fault Number) = .ok score ∧
      IsModest score := by
  have hpositive : (0 : ℚ) < tests := by exact_mod_cast htests
  have hcast : (failing : ℚ) ≤ tests := by exact_mod_cast hfailing
  have hshare : |((passWeight * ((tests : Int) - failing) : Int) : ℚ)| ≤ 2 ^ 7 * (tests : Int) := by
    push_cast
    rw [show ((passWeight : Int) : ℚ) = 70 from rfl, abs_of_nonneg (by linarith)]
    linarith [Nat.cast_nonneg (α := ℚ) failing]
  obtain ⟨passed, hpassed, -⟩ :=
    Number.divide_int_ok (by exact_mod_cast htests) (by decide) hshare
  obtain ⟨budget, hbudget, -⟩ :=
    Number.intToDouble_ok (n := issueBudget) (k := 5) (by decide) (by norm_num [issueBudget])
  have hadd : Quantity.add (Number.real passed) (Quantity.ofInt issueBudget) =
      .ok (.real (passed.add budget)) := Number.combine_real_int _ _ hbudget
  -- The penalty is the integer 0 if there are no issues, and a double otherwise.
  obtain ⟨sum, hsum, hbounded⟩ := penalty_ok severities
  have hsub : ∃ total, Quantity.sub (Number.real (passed.add budget)) sum = .ok (.real total) := by
    rcases hbounded with rfl | ⟨x, rfl, -⟩
    · obtain ⟨zero, hzero, -⟩ := Number.intToDouble_ok (n := 0) (k := 0) (by decide) (by simp)
      exact ⟨_, Number.combine_real_int _ _ hzero⟩
    · exact ⟨_, rfl⟩
  obtain ⟨total, htotal⟩ := hsub
  obtain ⟨score, hscore, hmodest⟩ := roundTenth_clamp_ok (d := total)
  refine ⟨score, ?_, hmodest⟩
  have hquotient : Quantity.divide
      (Quantity.ofInt (passWeight * ((tests : Int) - failing)) : Number)
      (Quantity.ofInt (tests : Int)) = .ok (.real passed) := hpassed
  unfold blend
  simp only [hquotient, hadd, hsum, htotal, bind, Except.bind]
  exact hscore

theorem ofIssues_ok {β : Type} (severities : List Severity) (tests : Nat)
    (buckets : Option (Table Int (List β))) :
    ∃ score, (ofIssues severities tests buckets : Except Fault Number) = .ok score ∧
      IsModest score :=
  blend_ok (by omega) (failingTests_le _ _ _) severities

/-- A number of modest size is short enough to be written. -/
theorem isWritable_ofDouble {d : Double} (h : d.IsAtMost (2 ^ 9)) :
    (Number.ofDouble d).isWritable := by
  unfold Number.ofDouble
  split
  · obtain ⟨n, hn, hle⟩ := Double.floor?_of_isAtMost h
    rw [hn]
    have hlength : (toString n.natAbs).length ≤ 3 :=
      (Nat.length_repr_le_iff (by decide)).2 (hle.trans_lt (by decide))
    simp only [Number.isWritable, decide_eq_true_eq]
    exact hlength.trans (by decide)
  · rfl

theorem text_ok {score : Number} (h : IsModest score) :
    ∃ text, Score.text (some score) = .ok text := by
  obtain ⟨d, rfl, hd⟩ := h
  have htext : Score.text (some (.real d)) = .ok (Number.ofDouble d).numeral := by
    change (Number.ofDouble d).text = _
    rw [Number.text_eq, if_pos (isWritable_ofDouble hd)]
  exact ⟨_, htext⟩

/-- A number can be divided by any positive whole number that has a double. -/
theorem divide_real_int_ok {x : Double} {n : Nat} (hx : x.IsAtMost (2 ^ 64)) (hn : 0 < n)
    (hbound : n < 2 ^ 1023) :
    ∃ d, Quantity.divide (Number.real x) (.int (n : Int)) = .ok (.real d) ∧
      d.IsAtMost (2 ^ 65) := by
  have hle : |((n : Int) : ℚ)| ≤ 2 ^ 1023 := by
    rw [Int.cast_natCast, Nat.abs_cast]
    exact_mod_cast hbound.le
  obtain ⟨y, hy, hy'⟩ := Number.intToDouble_ok (n := n) le_rfl hle
  obtain ⟨q, hq, -⟩ := hy'
  have hnearest : y = Double.nearest ((n : Int) < 0) ((n : Int).natAbs * 2 ^ (0 : Int).toNat)
      (2 ^ (-(0 : Int)).toNat) := by
    have hone : Double.ofInt (n : Int) = y := by
      unfold Number.intToDouble at hy
      split at hy <;> cases hy
      rfl
    rw [← hone, Double.ofInt, Double.ofScaled, if_neg (by omega)]
    simp only [Nat.pow_eq]
  have hhalf : 1 / 2 ≤ |q| := by
    rw [hnearest] at hq
    refine Double.half_le_abs_of_value_nearest (by simp) ?_ hq
    simpa using Nat.one_le_iff_ne_zero.2 hn.ne'
  refine ⟨x.div y, ?_, Double.div_isAtMost hx hq hhalf (by decide) (by norm_num)⟩
  change Number.divide _ _ = _
  simp only [Number.divide, Number.toDouble, hy]
  rfl

/-- The mean of modest scores is a number, for as many scores as can be counted. -/
theorem average_ok {scores : List (Option Number)} (h : ∀ n, some n ∈ scores → IsModest n)
    (hlength : scores.length < 2 ^ 1023) :
    ∃ mean, (average scores : Except Fault Number) = .ok (.real mean) := by
  match scores with
  | [] => exact ⟨_, rfl⟩
  | first :: rest =>
    -- The sum stays a double of limited size all along; no score counts as 100.
    have hfold : ∃ sum, (first :: rest).foldlM
        (fun sum score => Quantity.add sum (score.getD (Quantity.halves 200)))
        (Quantity.ofInt 0 : Number) = .ok sum ∧ IsBoundedSum sum := by
      apply foldlM_invariant (.inl rfl)
      intro score hscore sum hsum
      have hmodest : ∃ d, score.getD (Quantity.halves 200) = Number.real d ∧
          d.IsAtMost (2 ^ 9) := by
        cases score with
        | none =>
          exact ⟨_, rfl, Double.halves_isAtMost 200 (by decide) (by norm_num)⟩
        | some n => exact h n hscore
      obtain ⟨d, hd, hle⟩ := hmodest
      obtain ⟨c, hc, hc'⟩ := add_isBoundedSum hsum hle
      rw [hd]
      exact ⟨_, hc, .inr ⟨c, rfl, hc'⟩⟩
    obtain ⟨sum, hsum, hbounded⟩ := hfold
    have hmean : ∃ d, Quantity.divide sum (Quantity.ofInt ((first :: rest).length : Int)) =
        .ok (.real d) ∧ d.IsAtMost (2 ^ 65) := by
      rcases hbounded with rfl | ⟨x, rfl, hx⟩
      · refine Number.divide_int_ok (by simp) (by decide) ?_
        rw [Int.cast_zero, abs_zero, Int.cast_natCast]
        exact mul_nonneg (pow_nonneg zero_le_two _) (Nat.cast_nonneg _)
      · exact divide_real_int_ok hx (Nat.succ_pos rest.length) hlength
    obtain ⟨mean, hmean, hle⟩ := hmean
    obtain ⟨rounded, hrounded, -⟩ := Number.roundTenth_real_ok hle (by decide)
    have hlarger : ∃ d, Quantity.larger (Quantity.halves 0) (Number.real rounded) =
        Number.real d := by
      unfold Quantity.larger
      split
      · exact ⟨_, rfl⟩
      · split
        · exact ⟨_, rfl⟩
        · exact ⟨_, rfl⟩
    obtain ⟨d, hd⟩ := hlarger
    refine ⟨d, ?_⟩
    unfold average
    dsimp only
    rw [hsum]
    simp only [bind, Except.bind, hmean, hrounded, hd, pure, Except.pure]

end Score

/-- The output has a score, and a modest one. -/
def Output.HasModestScore (output : Output) : Prop :=
  ∃ score, output.score = some score ∧ Score.IsModest score

namespace Checker

/-- A file can always be rated. -/
theorem rated_ok (checker : Checker) (path : String) (issues : List Issue)
    (blocks : List TestBlock) :
    ∃ output, checker.rated path issues blocks = .ok output ∧ output.HasModestScore := by
  obtain ⟨score, hscore, hmodest⟩ := Score.ofIssues_ok (issues.map Issue.severity) blocks.length
    (some (TestBlock.buckets blocks issues))
  obtain ⟨text, htext⟩ := Score.text_ok hmodest
  unfold rated Checker.score summary
  simp only [hscore, htext, bind, Except.bind, pure, Except.pure]
  exact ⟨_, rfl, score, rfl, hmodest⟩

end Checker

namespace Codebase

/-- As many outputs as can be counted are rolled up, those without a score included. -/
theorem ofOutputs_ok_of_scores {outputs : List Output}
    (h : ∀ n, some n ∈ outputs.map Output.score → Score.IsModest n)
    (hlength : outputs.length < 2 ^ 1023) (failures : List Failure) :
    ∃ codebase, ofOutputs outputs failures = .ok codebase := by
  obtain ⟨mean, hmean⟩ := Score.average_ok h (by rwa [List.length_map])
  unfold ofOutputs
  rw [hmean]
  exact ⟨_, rfl⟩

theorem ofOutputs_ok {outputs : List Output} (h : ∀ output ∈ outputs, output.HasModestScore)
    (hlength : outputs.length < 2 ^ 1023) (failures : List Failure) :
    ∃ codebase, ofOutputs outputs failures = .ok codebase := by
  refine ofOutputs_ok_of_scores (fun n hn => ?_) hlength failures
  obtain ⟨output, houtput, heq⟩ := List.mem_map.1 hn
  obtain ⟨score, hscore, hscore'⟩ := h output houtput
  rw [heq, Option.some_inj] at hscore
  exact hscore ▸ hscore'

end Codebase

end FlakeLint
