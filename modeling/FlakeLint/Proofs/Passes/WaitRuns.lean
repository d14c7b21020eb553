-- SUMMARY: Runs of waits: a wait belongs to one exactly if another wait stands close to it.
import FlakeLint.Proofs.Passes.Queries
import FlakeLint.Proofs.Tree.Outline
import Mathlib.Data.List.Perm.Basic
import Mathlib.Data.List.Sort

/-!
# Runs of waits

The search for runs sorts the lines of all waits and counts how long the current
run is. What it tells of a line does not depend on the count: the line is in a run
exactly if one of two different waits that stand close to each other starts on it,
next to each other in the sorted list or not.
-/

namespace FlakeLint

namespace Wait

variable {line : Int}

-- ---------------------------------------------------------------------------
-- Sorted lines
-- ---------------------------------------------------------------------------

/-- Two lines are close enough for a run, and `line` is one of them. -/
def IsPairAt (line : Int) (l m : Nat) : Prop :=
  ((l : Int) - m).natAbs ≤ runGap ∧ (line = l ∨ line = m)

theorem IsPairAt.symm {l m : Nat} (h : IsPairAt line l m) : IsPairAt line m l := by
  obtain ⟨hclose, hline⟩ := h
  exact ⟨by omega, hline.symm⟩

/-- The length of the run so far does not matter, since two lines are a run already. -/
theorem inRun_eq_inRun_one {run : Nat} (h : 0 < run) (lines : List Nat) :
    inRun line run lines = inRun line 1 lines := by
  match lines with
  | [] => rfl
  | [_] => rfl
  | previous :: current :: rest =>
    unfold inRun
    by_cases hclose : current - previous ≤ runGap
    · have hrun := inRun_eq_inRun_one (Nat.succ_pos run) (current :: rest)
      have htwo := inRun_eq_inRun_one (Nat.succ_pos 1) (current :: rest)
      have hlong : 2 ≤ run + 1 := Nat.succ_le_succ h
      simp [hclose, hrun, htwo, hlong]
    · simp [hclose]

theorem inRun_cons_cons {previous current : Nat} (h : previous ≤ current) (rest : List Nat) :
    inRun line 1 (previous :: current :: rest) = true ↔
      IsPairAt line previous current ∨ inRun line 1 (current :: rest) = true := by
  have hclose : ((previous : Int) - current).natAbs ≤ runGap ↔ current - previous ≤ runGap := by
    omega
  rw [inRun, IsPairAt, hclose]
  by_cases hgap : current - previous ≤ runGap
  · have hrest : inRun line 2 (current :: rest) = inRun line 1 (current :: rest) :=
      inRun_eq_inRun_one (Nat.succ_pos 1) _
    simp [hgap, hrest]
  · simp [hgap]

/-- In a sorted list every pair of close lines shows in a pair of neighbours. -/
theorem inRun_eq_false_iff {lines : List Nat} (h : lines.Pairwise (· ≤ ·)) :
    inRun line 1 lines = false ↔ lines.Pairwise fun l m => ¬ IsPairAt line l m := by
  induction lines with
  | nil => simp [inRun]
  | cons previous lines ih =>
    cases lines with
    | nil => simp [inRun]
    | cons current rest =>
      rw [List.pairwise_cons] at h
      obtain ⟨hfirst, hsorted⟩ := h
      have hnext : previous ≤ current := hfirst current List.mem_cons_self
      rw [← Bool.not_eq_true, inRun_cons_cons hnext, not_or, Bool.not_eq_true, ih hsorted,
        List.pairwise_cons (a := previous)]
      refine and_congr_left fun hrest => ⟨fun hpair l hl => ?_, fun hall => ?_⟩
      · rcases List.mem_cons.1 hl with rfl | hl
        · exact hpair
        -- A line behind the neighbour is close to both if it is close to the first.
        · have hbetween : current ≤ l := (List.pairwise_cons.1 hsorted).1 l hl
          have hapart := (List.pairwise_cons.1 hrest).1 l hl
          rintro ⟨hclose, hline⟩
          unfold IsPairAt at hpair hapart
          omega
      · exact hall current List.mem_cons_self

-- ---------------------------------------------------------------------------
-- Waits of a tree
-- ---------------------------------------------------------------------------

theorem aliasLines_eq_map (place : Cursor) (object : String) :
    aliasLines place object = (aliasWaits place object).map Node.line := by
  unfold aliasLines aliasWaits
  rw [List.map_map]
  rfl

/-- Sorting brings no pair of close waits about and makes none go away. -/
theorem inRun_aliasLines_iff (place : Cursor) (object : String) :
    inRun line 1 (aliasLines place object).mergeSort = true ↔
      ∃ i j : Fin (aliasWaits place object).length, i < j ∧
        IsPairAt line (aliasWaits place object)[i].line (aliasWaits place object)[j].line := by
  have hsorted : (aliasLines place object).mergeSort.Pairwise (· ≤ ·) :=
    List.sortedLE_mergeSort.pairwise
  have hsymm : ∀ {l m : Nat}, ¬ IsPairAt line l m → ¬ IsPairAt line m l :=
    fun hnot hpair => hnot hpair.symm
  rw [← Bool.not_eq_false, inRun_eq_false_iff hsorted,
    (List.mergeSort_perm _ _).pairwise_iff hsymm, aliasLines_eq_map, List.pairwise_map,
    List.pairwise_iff_get]
  push Not
  rfl

theorem isConsecutive_of_placed {place : Cursor} {object : String}
    (h : ∀ wait ∈ aliasWaits place object, wait.isUnplaced = false) (line : Int) :
    isConsecutive place line object = .ok (inRun line 1 (aliasLines place object).mergeSort) := by
  have hplaced : (aliasWaits place object).any Node.isUnplaced = false :=
    List.any_eq_false.2 fun wait hwait => Bool.eq_false_iff.1 (h wait hwait)
  rw [isConsecutive_guarded, hplaced, if_neg Bool.false_ne_true]

/-- Where all waits for aliases have positions, the search for runs has an answer for every line: yes
exactly if a wait starts there that has a different wait at most three lines away. -/
theorem isConsecutive_iff_close_waits {place : Cursor} {object : String}
    (h : ∀ wait ∈ aliasWaits place object, wait.isUnplaced = false) (line : Int) :
    ∃ answer, isConsecutive place line object = .ok answer ∧
      (answer = true ↔
        ∃ i j : Fin (aliasWaits place object).length, i ≠ j ∧
          (aliasWaits place object)[i].line = line ∧
          (((aliasWaits place object)[i].line : Int) -
            (aliasWaits place object)[j].line).natAbs ≤ 3) := by
  refine ⟨_, isConsecutive_of_placed h line, ?_⟩
  rw [inRun_aliasLines_iff]
  constructor
  · rintro ⟨i, j, hlt, hclose, hline | hline⟩
    · exact ⟨i, j, ne_of_lt hlt, hline.symm, hclose⟩
    · exact ⟨j, i, ne_of_gt hlt, hline.symm, (IsPairAt.symm ⟨hclose, .inr hline⟩).1⟩
  · rintro ⟨i, j, hne, hline, hclose⟩
    rcases lt_or_gt_of_ne hne with hlt | hgt
    · exact ⟨i, j, hlt, hclose, .inl hline.symm⟩
    · exact ⟨j, i, hgt, IsPairAt.symm ⟨hclose, .inl hline.symm⟩⟩

end Wait

namespace Sample

/-- The outline of a call `cy.wait('@x')`, for an alias of one letter. -/
def letterWait (start : Nat) : Outline :=
  methodCall none start (start + 3) (start + 7) (start + 13)
    (piece .identifier (some .object) start (start + 2) [])
    [piece .string none (start + 8) (start + 12) []]

/-- Waits on the lines 1, 4 and 8. -/
def spacedWaits : TestFile :=
  .ofOutline "a.cy.js" "cy.wait('@a')\n\n\ncy.wait('@b')\n\n\n\ncy.wait('@c')" defaultGrammar <|
    piece (.other "program") none 0 46 [letterWait 0, letterWait 16, letterWait 33]

end Sample

/-- The wait on line 4 has another one three lines above it, the one on line 8 none closer than four. -/
theorem Wait.isConsecutive_spaced_waits :
    (∀ wait ∈ aliasWaits Sample.spacedWaits.cursor libraryObject, wait.isUnplaced = false) ∧
    isConsecutive Sample.spacedWaits.cursor 4 libraryObject = .ok true ∧
    isConsecutive Sample.spacedWaits.cursor 8 libraryObject = .ok false := by
  have hplaced : ∀ wait ∈ aliasWaits Sample.spacedWaits.cursor libraryObject,
      wait.isUnplaced = false := by decide +kernel
  obtain ⟨near, hnear, hnear_iff⟩ := isConsecutive_iff_close_waits hplaced 4
  obtain ⟨far, hfar, hfar_iff⟩ := isConsecutive_iff_close_waits hplaced 8
  have hyes : near = true := hnear_iff.2 (by decide +kernel)
  have hno : far = false := Bool.eq_false_iff.2 fun h => absurd (hfar_iff.1 h) (by decide +kernel)
  exact ⟨hplaced, hyes ▸ hnear, hno ▸ hfar⟩

end FlakeLint
