-- SUMMARY: How large the results of double-precision arithmetic can be.
import FlakeLint.Number.Basic
import Mathlib.Algebra.Order.Field.Power
import Mathlib.Algebra.Order.Field.Rat
import Mathlib.Data.Nat.Log
import Mathlib.Data.Rat.Cast.Order
import Mathlib.Tactic.FieldSimp
import Mathlib.Tactic.Linarith
import Mathlib.Tactic.NormNum
import Mathlib.Tactic.Positivity
import Mathlib.Tactic.Ring

/-!
# Bounds on rounded results

A power of two is a double, so a value at or below it is never rounded above it,
and neither is one that exceeds it by less than half a step. From this follow
bounds on sums, products and quotients; a result with a bound is in particular
neither infinite nor no number.
-/

namespace FlakeLint

/-! ## Rounding to whole numbers -/

/-- Rounding adds at most one half. -/
theorem two_mul_roundHalfEven_le (num den : Nat) :
    2 * (roundHalfEven num den * den) ≤ 2 * num + den := by
  have hdiv := Nat.div_add_mod num den
  have hcomm : num / den * den = den * (num / den) := Nat.mul_comm _ _
  unfold roundHalfEven
  dsimp only
  split
  · omega
  · split
    · rw [Nat.add_mul]
      omega
    · split
      · omega
      · rw [Nat.add_mul]
        omega

namespace Double

/-! ## Scaling -/

theorem two_zpow_eq (e : Int) : (2 : ℚ) ^ e = 2 ^ e.toNat / 2 ^ (-e).toNat := by
  rcases Int.le_total 0 e with h | h
  · obtain ⟨n, rfl⟩ := Int.eq_ofNat_of_zero_le h
    simp
  · obtain ⟨n, hn⟩ := Int.eq_ofNat_of_zero_le (Int.neg_nonneg_of_nonpos h)
    obtain rfl : e = -(n : Int) := by omega
    simp

theorem unscale_eq (num den : Nat) (e : Int) :
    ((unscale num den e).1 : ℚ) / (unscale num den e).2 = num / den / 2 ^ e := by
  rw [two_zpow_eq]
  simp only [unscale, Nat.pow_eq]
  push_cast
  field_simp

theorem unscale_pos {den : Nat} (hden : 0 < den) (num : Nat) (e : Int) :
    0 < (unscale num den e).2 := by
  simp only [unscale, Nat.pow_eq]
  positivity

/-- The chosen exponent leaves a quotient with the full number of bits, or is the lowest one. -/
theorem exponentOf_bounds {num den : Nat} (hnum : num ≠ 0) (hden : 0 < den) :
    (num : ℚ) / den < 2 ^ 53 * 2 ^ exponentOf num den ∧
    (exponentOf num den = lowestExponent ∨
      2 ^ 52 * (2 : ℚ) ^ exponentOf num den ≤ num / den) := by
  have hden' : (0 : ℚ) < den := by exact_mod_cast hden
  have hlow : (2 : ℚ) ^ ((num.log2 : Int) - den.log2 - 1) ≤ num / den := by
    have hn : (2 : ℚ) ^ num.log2 ≤ num := by exact_mod_cast Nat.log2_self_le hnum
    have hd : (den : ℚ) ≤ 2 ^ (den.log2 + 1) := by exact_mod_cast Nat.lt_log2_self.le
    rw [le_div_iff₀ hden']
    calc (2 : ℚ) ^ ((num.log2 : Int) - den.log2 - 1) * den
        ≤ 2 ^ ((num.log2 : Int) - den.log2 - 1) * 2 ^ (den.log2 + 1) := by gcongr
      _ = 2 ^ num.log2 := by
        rw [← zpow_natCast, ← zpow_add₀ two_ne_zero, ← zpow_natCast]
        congr 1
        push_cast
        ring
      _ ≤ num := hn
  have hhigh : (num : ℚ) / den < 2 ^ ((num.log2 : Int) - den.log2 + 1) := by
    have hn : (num : ℚ) < 2 ^ (num.log2 + 1) := by exact_mod_cast Nat.lt_log2_self
    have hd : (2 : ℚ) ^ den.log2 ≤ den := by exact_mod_cast Nat.log2_self_le hden.ne'
    rw [div_lt_iff₀ hden']
    calc (num : ℚ) < 2 ^ (num.log2 + 1) := hn
      _ = 2 ^ ((num.log2 : Int) - den.log2 + 1) * 2 ^ den.log2 := by
        rw [← zpow_natCast 2 den.log2, ← zpow_add₀ two_ne_zero, ← zpow_natCast]
        congr 1
        push_cast
        ring
      _ ≤ 2 ^ ((num.log2 : Int) - den.log2 + 1) * den := by gcongr
  -- The guess is at most one too low; the quotient then tells which of the two exponents it is.
  have hfits (e : Int) : (unscale num den e).1 / (unscale num den e).2 < 2 ^ mantissaBits ↔
      (num : ℚ) / den < 2 ^ 53 * 2 ^ e := by
    have hpos : (0 : ℚ) < (unscale num den e).2 := by exact_mod_cast unscale_pos hden num e
    have hpow : (0 : ℚ) < 2 ^ e := by positivity
    rw [Nat.div_lt_iff_lt_mul (unscale_pos hden num e), ← div_lt_iff₀ hpow, ← unscale_eq,
      div_lt_iff₀ hpos]
    exact_mod_cast Iff.rfl
  have hguess : (num : ℚ) / den < 2 ^ 54 * 2 ^
      (max ((num.log2 : Int) - den.log2 - mantissaBits) lowestExponent) := by
    refine hhigh.trans_le ?_
    rw [← zpow_natCast, ← zpow_add₀ two_ne_zero]
    apply zpow_le_zpow_right₀ one_le_two
    simp only [mantissaBits]
    omega
  unfold exponentOf
  simp only [Nat.pow_eq, hfits]
  split
  · next hlt =>
    refine ⟨hlt, ?_⟩
    rcases le_or_gt ((num.log2 : Int) - den.log2 - mantissaBits) lowestExponent with hle | hgt
    · exact .inl (max_eq_right hle)
    · right
      rw [max_eq_left hgt.le]
      refine le_trans (le_of_eq ?_) hlow
      rw [← zpow_natCast, ← zpow_add₀ two_ne_zero]
      congr 1
      simp only [mantissaBits]
      omega
  · next hge =>
    rw [not_lt] at hge
    rw [zpow_add_one₀ two_ne_zero]
    refine ⟨by linarith, .inr (by linarith)⟩

/-! ## Bounded doubles -/

/-- The double is a number with an absolute value of at most `bound`. -/
def IsAtMost (d : Double) (bound : ℚ) : Prop :=
  ∃ q, d.value = some q ∧ |q| ≤ bound

theorem value_finite (negative : Bool) (m : Nat) (e : Int) :
    (finite negative m e).value = some ((signed negative m : ℚ) * 2 ^ e) := by
  simp only [value, two_zpow_eq, mul_div_assoc]

theorem abs_signed (negative : Bool) (m : Nat) : |(signed negative m : ℚ)| = m := by
  cases negative <;> simp [signed]

theorem finite_isAtMost {negative : Bool} {m : Nat} {e : Int} {bound : ℚ}
    (h : (m : ℚ) * 2 ^ e ≤ bound) : (finite negative m e).IsAtMost bound := by
  refine ⟨_, value_finite negative m e, ?_⟩
  have hpow : (0 : ℚ) < 2 ^ e := by positivity
  rwa [abs_mul, abs_signed, abs_of_pos hpow]

/-- A value below `2 ^ k`, or above it by less than half a step, gets a mantissa and an exponent that
keep it at or below `2 ^ k`. -/
theorem rounded_cases {num den k : Nat} (hnum : num ≠ 0) (hden : 0 < den)
    (h : (num : ℚ) / den < 2 ^ k * (1 + 1 / 2 ^ 53)) {e : Int} {m : Nat}
    (he : exponentOf num den = e)
    (hm : roundHalfEven (unscale num den e).1 (unscale num den e).2 = m) :
    m ≤ 2 ^ 53 ∧ e + 53 ≤ k ∨ m ≤ 2 ^ 52 ∧ e + 52 ≤ k := by
  obtain ⟨hhigh, hlow⟩ := exponentOf_bounds hnum hden
  rw [he] at hhigh hlow
  have hpow : (0 : ℚ) < 2 ^ e := by positivity
  have hround : 2 * (m : ℚ) ≤ 2 * (num / den / 2 ^ e) + 1 := by
    have hd : (0 : ℚ) < (unscale num den e).2 := by exact_mod_cast unscale_pos hden num e
    have hcast : (2 * (m * (unscale num den e).2) : ℚ) ≤
        2 * (unscale num den e).1 + (unscale num den e).2 := by
      rw [← hm]
      exact_mod_cast two_mul_roundHalfEven_le _ _
    rw [← unscale_eq, ← mul_le_mul_iff_left₀ hd]
    field_simp
    linarith
  rcases le_or_gt (e + 53) k with hle | hgt
  · have hlt : (num : ℚ) / den / 2 ^ e < 2 ^ 53 := by rwa [div_lt_iff₀ hpow]
    have hcast : 2 * (m : ℚ) < 2 ^ 54 + 1 := by linarith
    have hnat : 2 * m < 2 ^ 54 + 1 := by exact_mod_cast hcast
    exact .inl ⟨by omega, hle⟩
  · -- The value has all bits at this exponent, so the exponent is the one of `2 ^ k` itself.
    have hfull : 2 ^ 52 * (2 : ℚ) ^ e ≤ num / den := by
      refine hlow.resolve_left ?_
      simp only [lowestExponent]
      omega
    have hlt : (2 : ℚ) ^ (52 + e) < 2 ^ ((k : Int) + 1) := by
      rw [zpow_add₀ two_ne_zero, zpow_add_one₀ two_ne_zero, zpow_natCast]
      refine hfull.trans_lt (h.trans_le ?_)
      gcongr
      norm_num
    have hek : e + 52 = k := by
      have := (zpow_lt_zpow_iff_right₀ (one_lt_two (α := ℚ))).1 hlt
      omega
    have hbound : (2 : ℚ) ^ k = 2 ^ 52 * 2 ^ e := by
      rw [← zpow_natCast, ← hek, zpow_add₀ two_ne_zero, mul_comm]
      rfl
    have hquot : (num : ℚ) / den / 2 ^ e < 2 ^ 52 * (1 + 1 / 2 ^ 53) := by
      rw [div_lt_iff₀ hpow, mul_right_comm, ← hbound]
      exact h
    have hcast : 2 * (m : ℚ) < 2 ^ 53 + 2 := by linarith
    have hnat : 2 * m < 2 ^ 53 + 2 := by exact_mod_cast hcast
    exact .inr ⟨by omega, hek.le⟩

theorem mul_two_zpow_le {m j k : Nat} {e : Int} (hm : m ≤ 2 ^ j) (he : e + j ≤ k) :
    (m : ℚ) * 2 ^ e ≤ 2 ^ k := by
  have hcast : (m : ℚ) ≤ 2 ^ j := by exact_mod_cast hm
  calc (m : ℚ) * 2 ^ e ≤ 2 ^ j * 2 ^ e := by gcongr
    _ = 2 ^ (e + j) := by rw [zpow_add₀ two_ne_zero, zpow_natCast, mul_comm]
    _ ≤ 2 ^ (k : Int) := zpow_le_zpow_right₀ one_le_two he
    _ = 2 ^ k := zpow_natCast 2 k

/-- A quotient that is at most a power of two, or above it by less than half a step, is rounded to a
number that is at most that power. -/
theorem nearest_isAtMost {num den k : Nat} (negative : Bool) (hden : 0 < den)
    (hk : k ≤ 1023) (h : (num : ℚ) / den < 2 ^ k * (1 + 1 / 2 ^ 53)) :
    (nearest negative num den).IsAtMost (2 ^ k) := by
  unfold nearest
  split
  · exact finite_isAtMost (by simp)
  · next hnum =>
    have hcases := rounded_cases hnum hden h rfl rfl
    dsimp only
    split
    · next hfull =>
      have hfits : exponentOf num den + 53 ≤ k := by
        rcases hcases with ⟨_, hle⟩ | ⟨hle, _⟩
        · exact hle
        · rw [hfull] at hle
          exact absurd hle (by decide)
      rw [if_neg (by simp only [highestExponent]; omega)]
      exact finite_isAtMost (mul_two_zpow_le (j := 52) le_rfl (by push_cast; omega))
    · rw [if_neg (by simp only [highestExponent]; omega)]
      rcases hcases with ⟨hm, he⟩ | ⟨hm, he⟩
      · exact finite_isAtMost (mul_two_zpow_le hm (by push_cast; omega))
      · exact finite_isAtMost (mul_two_zpow_le hm (by push_cast; omega))

/-- A value of at least one is not rounded below one half. -/
theorem half_le_abs_of_value_nearest {num den : Nat} {negative : Bool} (hden : 0 < den)
    (h : 1 ≤ (num : ℚ) / den) {q : ℚ} (hq : (nearest negative num den).value = some q) :
    1 / 2 ≤ |q| := by
  have hnum : num ≠ 0 := by
    rintro rfl
    norm_num at h
  obtain ⟨hhigh, hlow⟩ := exponentOf_bounds hnum hden
  -- At the lowest exponent, the value would be far below one.
  have hfull : 2 ^ 52 * (2 : ℚ) ^ exponentOf num den ≤ num / den := by
    refine hlow.resolve_left fun he => ?_
    have htiny : (2 : ℚ) ^ 53 * 2 ^ lowestExponent ≤ 1 := by
      rw [← zpow_natCast, ← zpow_add₀ two_ne_zero]
      exact zpow_le_one_of_nonpos₀ one_le_two (by decide)
    rw [he] at hhigh
    linarith
  have hm : 2 ^ 52 ≤ roundHalfEven (unscale num den (exponentOf num den)).1
      (unscale num den (exponentOf num den)).2 := by
    refine le_trans ?_ (le_roundHalfEven _ _)
    have hpos := unscale_pos hden num (exponentOf num den)
    rw [Nat.le_div_iff_mul_le hpos]
    have hd : (0 : ℚ) < (unscale num den (exponentOf num den)).2 := by exact_mod_cast hpos
    have hpow : (0 : ℚ) < 2 ^ exponentOf num den := by positivity
    have hcast := (le_div_iff₀ hpow).2 hfull
    rw [← unscale_eq, le_div_iff₀ hd] at hcast
    exact_mod_cast hcast
  unfold nearest at hq
  rw [if_neg hnum] at hq
  dsimp only at hq
  split at hq
  · split at hq
    · cases hq
    · rw [value_finite, Option.some_inj] at hq
      rw [← hq, abs_mul, abs_signed, abs_of_pos (by positivity), zpow_add_one₀ two_ne_zero]
      norm_num [mantissaBits]
      linarith
  · split at hq
    · cases hq
    · rw [value_finite, Option.some_inj] at hq
      rw [← hq, abs_mul, abs_signed, abs_of_pos (by positivity)]
      have hcast : (2 ^ 52 : ℚ) ≤ roundHalfEven (unscale num den (exponentOf num den)).1
        (unscale num den (exponentOf num den)).2 := by exact_mod_cast hm
      calc (1 / 2 : ℚ) ≤ 2 ^ 52 * 2 ^ exponentOf num den := by linarith
        _ ≤ _ := by gcongr

/-! ## Bounded results -/

variable {x y : Double} {a b : ℚ} {k : Nat}

theorem ofQuotient_isAtMost {num : Int} {den : Nat} (hden : 0 < den) (hk : k ≤ 1023)
    (h : |(num : ℚ)| / den < 2 ^ k * (1 + 1 / 2 ^ 53)) :
    (ofQuotient num den).IsAtMost (2 ^ k) := by
  apply nearest_isAtMost _ hden hk
  rwa [Nat.cast_natAbs, Int.cast_abs]

theorem ofScaled_isAtMost {negativeZero : Bool} {n : Int} {e : Int} (hk : k ≤ 1023)
    (h : |(n : ℚ) * 2 ^ e| < 2 ^ k * (1 + 1 / 2 ^ 53)) :
    (ofScaled negativeZero n e).IsAtMost (2 ^ k) := by
  unfold ofScaled
  simp only [Nat.pow_eq]
  split
  · exact finite_isAtMost (by simp)
  · apply nearest_isAtMost _ (by positivity) hk
    rw [abs_mul, abs_of_pos (by positivity : (0 : ℚ) < 2 ^ e), two_zpow_eq] at h
    push_cast
    rw [Nat.cast_natAbs, Int.cast_abs, mul_div_assoc]
    exact h

theorem ofInt_isAtMost {n : Int} (hk : k ≤ 1023) (h : |(n : ℚ)| < 2 ^ k * (1 + 1 / 2 ^ 53)) :
    (ofInt n).IsAtMost (2 ^ k) := by
  apply ofScaled_isAtMost hk
  simpa using h

theorem add_isAtMost (hx : x.IsAtMost a) (hy : y.IsAtMost b) (hk : k ≤ 1023)
    (h : a + b < 2 ^ k * (1 + 1 / 2 ^ 53)) : (x.add y).IsAtMost (2 ^ k) := by
  obtain ⟨p, hp, hpa⟩ := hx
  obtain ⟨q, hq, hqb⟩ := hy
  match x, y with
  | .finite s m e, .finite t n f =>
    rw [value_finite, Option.some_inj] at hp hq
    -- At the lower one of the exponents, the sum of the mantissas is exact.
    have hsum : ((signed s m * 2 ^ (e - min e f).toNat + signed t n * 2 ^ (f - min e f).toNat :
        Int) : ℚ) * 2 ^ min e f = p + q := by
      have he : (2 : ℚ) ^ (e - min e f).toNat * 2 ^ min e f = 2 ^ e := by
        rw [← zpow_natCast, ← zpow_add₀ two_ne_zero]
        congr 1
        omega
      have hf : (2 : ℚ) ^ (f - min e f).toNat * 2 ^ min e f = 2 ^ f := by
        rw [← zpow_natCast, ← zpow_add₀ two_ne_zero]
        congr 1
        omega
      push_cast
      rw [add_mul, mul_assoc, mul_assoc, he, hf, hp, hq]
    apply ofScaled_isAtMost hk
    simp only [Int.pow_eq]
    rw [hsum]
    exact (abs_add_le p q).trans_lt (by linarith)

theorem mul_isAtMost (hx : x.IsAtMost a) (hy : y.IsAtMost b) (hk : k ≤ 1023)
    (h : a * b < 2 ^ k * (1 + 1 / 2 ^ 53)) : (x.mul y).IsAtMost (2 ^ k) := by
  obtain ⟨p, hp, hpa⟩ := hx
  obtain ⟨q, hq, hqb⟩ := hy
  match x, y with
  | .finite s m e, .finite t n f =>
    rw [value_finite, Option.some_inj] at hp hq
    apply ofScaled_isAtMost hk
    have hprod : ((signed s m * signed t n : Int) : ℚ) * 2 ^ (e + f) = p * q := by
      rw [← hp, ← hq, zpow_add₀ two_ne_zero]
      push_cast
      ring
    rw [hprod, abs_mul]
    exact (mul_le_mul hpa hqb (abs_nonneg q) ((abs_nonneg p).trans hpa)).trans_lt h

/-- Dividing by at least one half at most doubles. -/
theorem div_isAtMost (hx : x.IsAtMost a) {q : ℚ} (hy : y.value = some q) (hq : 1 / 2 ≤ |q|)
    (hk : k ≤ 1023) (h : 2 * a < 2 ^ k * (1 + 1 / 2 ^ 53)) : (x.div y).IsAtMost (2 ^ k) := by
  obtain ⟨p, hp, hpa⟩ := hx
  match x, y with
  | .finite s m e, .finite t n f =>
    rw [value_finite, Option.some_inj] at hp hy
    rw [← hy, abs_mul, abs_signed, abs_of_pos (by positivity)] at hq
    rw [← hp, abs_mul, abs_signed, abs_of_pos (by positivity)] at hpa
    have hn : n ≠ 0 := by
      rintro rfl
      norm_num at hq
    have hpos : (0 : ℚ) < n := by exact_mod_cast Nat.pos_of_ne_zero hn
    unfold div
    simp only [Nat.pow_eq]
    rw [if_neg hn]
    apply nearest_isAtMost _ (Nat.mul_pos (Nat.pos_of_ne_zero hn) (by positivity)) hk
    have hquot : ((m * 2 ^ (e - f).toNat : Nat) : ℚ) / ((n * 2 ^ (f - e).toNat : Nat) : ℚ) =
        m * 2 ^ e / (n * 2 ^ f) := by
      have hef : (2 : ℚ) ^ (e - f) = 2 ^ (e - f).toNat / 2 ^ (f - e).toNat := by
        rw [two_zpow_eq, neg_sub]
      push_cast
      rw [mul_div_mul_comm, ← hef, zpow_sub₀ two_ne_zero, mul_div_mul_comm]
    rw [hquot, div_lt_iff₀ (by positivity)]
    calc (m : ℚ) * 2 ^ e ≤ a := hpa
      _ < 2 ^ k * (1 + 1 / 2 ^ 53) * (1 / 2) := by linarith
      _ ≤ 2 ^ k * (1 + 1 / 2 ^ 53) * (n * 2 ^ f) := by gcongr

end Double

end FlakeLint
