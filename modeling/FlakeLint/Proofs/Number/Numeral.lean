-- SUMMARY: Numerals without a limit on their length, and numbers that are too long to be written.
import FlakeLint.Proofs.Number.WholeLiterals
import FlakeLint.Proofs.Passes.Issues
import Mathlib.Algebra.Order.Ring.Int
import Mathlib.Order.Compare

/-!
# Long numerals

A decimal numeral is read up to a limit of digits, one in base 16 is read at any
length. So there are literals whose value can be read but not be written.
-/

namespace FlakeLint

namespace Numeral

/-- One and then only zeros, in base 16. -/
def sixteenToThe (k : Nat) : String :=
  String.ofList ('0' :: 'x' :: '1' :: List.replicate k '0')

theorem toDigits_sixteenToThe (k : Nat) :
    Nat.toDigits 16 (16 ^ k) = '1' :: List.replicate k '0' := by
  induction k with
  | zero => rfl
  | succ k ih =>
    have hlarge : ¬ 16 ^ (k + 1) < 16 := by
      have hpos := Nat.pow_pos (n := k) (show 0 < 16 by decide)
      rw [Nat.pow_succ]
      omega
    rw [Nat.toDigits_eq_if (by decide), if_neg hlarge, Nat.pow_succ,
      Nat.mul_div_cancel _ (by decide), Nat.mul_mod_left, ih, List.replicate_succ']
    rfl

theorem writes_sixteenToThe (k : Nat) : Writes (16 ^ k) (sixteenToThe k) := by
  have hdigits : ('1' :: List.replicate k '0').map Char.toLower =
      List.replicate 0 '0' ++ Nat.toDigits Radix.hexadecimal.base (16 ^ k) := by
    rw [Radix.base, toDigits_sixteenToThe, List.map_cons, List.map_replicate]
    rfl
  have hletter : 'x' ∈ Radix.hexadecimal.letters := by decide
  exact .prefixed .hexadecimal 0 hletter hdigits (.refl (List.cons_ne_nil _ _))

/-- A literal in base 16 has its value at any length. -/
theorem value?_sixteenToThe (k : Nat) : value? (sixteenToThe k) = some (.int (16 ^ k : Nat)) :=
  value?_of_writes (writes_sixteenToThe k)

end Numeral

namespace Number

theorem le_int (m n : Int) : (Number.int m).le (.int n) = decide (m ≤ n) := by
  unfold Number.le compare?
  dsimp only
  rcases lt_trichotomy m n with h | h | h
  · rw [compare_lt_iff_lt.2 h]
    exact (decide_eq_true h.le).symm
  · rw [compare_eq_iff_eq.2 h]
    exact (decide_eq_true h.le).symm
  · rw [compare_gt_iff_gt.2 h]
    exact (decide_eq_false (not_le.2 h)).symm

/-- From `16 ^ 3600` on, powers of sixteen have more digits than are written. -/
theorem not_isWritable_of_le {k : Nat} (h : 3600 ≤ k) :
    (Number.int (16 ^ k : Nat)).isWritable = false := by
  obtain ⟨n, hn, hk⟩ : ∃ n, digitLimit = 43 * n ∧ 36 * n ≤ k := ⟨100, rfl, h⟩
  have hlarge : 10 ^ digitLimit ≤ 16 ^ k :=
    calc 10 ^ digitLimit = (10 ^ 43) ^ n := by rw [hn, Nat.pow_mul]
      _ ≤ (16 ^ 36) ^ n := Nat.pow_le_pow_left (by decide) n
      _ = 16 ^ (36 * n) := (Nat.pow_mul 16 36 n).symm
      _ ≤ 16 ^ k := Nat.pow_le_pow_right (by decide) hk
  simp only [isWritable, Int.natAbs_natCast, decide_eq_false_iff_not]
  intro hle
  exact absurd ((Nat.length_repr_le_iff (by decide)).1 hle) (Nat.not_lt.2 hlarge)

end Number

end FlakeLint
