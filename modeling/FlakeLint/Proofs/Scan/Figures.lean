-- SUMMARY: The figures of a code base conserve issues and files, whatever the order of the results.
import FlakeLint.Proofs.Number.Score
import FlakeLint.Proofs.Table
import Mathlib.Algebra.BigOperators.Group.List.Basic
import Mathlib.Data.Set.Card

/-!
# Figures of a code base

The tallies are kept up while the results are gone through once. Each result adds to the
tally of its own checker only, so a tally is the sum over the results of that checker, and
nothing is lost or counted twice when checkers and files come interleaved.
-/

namespace FlakeLint

-- ---------------------------------------------------------------------------
-- Sums of tallies
-- ---------------------------------------------------------------------------

namespace Tally

instance : Zero Tally := ⟨⟨0, 0⟩⟩

instance : Add Tally := ⟨fun a b => ⟨a.files + b.files, a.issues + b.issues⟩⟩

@[simp] theorem zero_files : (0 : Tally).files = 0 := rfl

@[simp] theorem zero_issues : (0 : Tally).issues = 0 := rfl

@[simp] theorem add_files (a b : Tally) : (a + b).files = a.files + b.files := rfl

@[simp] theorem add_issues (a b : Tally) : (a + b).issues = a.issues + b.issues := rfl

@[ext] theorem ext {a b : Tally} (hfiles : a.files = b.files) (hissues : a.issues = b.issues) :
    a = b := by
  cases a
  cases b
  simp_all

instance : AddCommMonoid Tally where
  add_assoc a b c := ext (Nat.add_assoc _ _ _) (Nat.add_assoc _ _ _)
  zero_add a := ext (Nat.zero_add _) (Nat.zero_add _)
  add_zero a := ext (Nat.add_zero _) (Nat.add_zero _)
  add_comm a b := ext (Nat.add_comm _ _) (Nat.add_comm _ _)
  nsmul := nsmulRec

theorem sum_files (tallies : List Tally) : tallies.sum.files = (tallies.map files).sum := by
  induction tallies with
  | nil => rfl
  | cons tally tallies ih => rw [List.sum_cons, add_files, ih, List.map_cons, List.sum_cons]

theorem sum_issues (tallies : List Tally) : tallies.sum.issues = (tallies.map issues).sum := by
  induction tallies with
  | nil => rfl
  | cons tally tallies ih => rw [List.sum_cons, add_issues, ih, List.map_cons, List.sum_cons]

end Tally

namespace Output

/-- What a result adds to the tally of its checker. -/
def tally (output : Output) : Tally :=
  if output.issues.isEmpty then 0 else ⟨1, output.issues.length⟩

theorem tally_issues (output : Output) : output.tally.issues = output.issues.length := by
  unfold tally
  split
  · next hempty => rw [List.isEmpty_iff.1 hempty]; rfl
  · rfl

theorem tally_files (output : Output) :
    output.tally.files = if output.issues.isEmpty then 0 else 1 := by
  unfold tally
  split <;> rfl

theorem sum_tally_files (outputs : List Output) :
    (outputs.map fun output => output.tally.files).sum =
      (outputs.filter fun output => !output.issues.isEmpty).length := by
  induction outputs with
  | nil => rfl
  | cons output outputs ih =>
    rw [List.map_cons, List.sum_cons, ih, tally_files, List.filter_cons]
    cases output.issues.isEmpty <;> simp [Nat.add_comm]

end Output

namespace Codebase

-- ---------------------------------------------------------------------------
-- The tally of a checker
-- ---------------------------------------------------------------------------

/-- The tally of a checker; one that does not occur has nothing to count. -/
def tallyOf (tallies : Table String Tally) (checker : String) : Tally :=
  (tallies.get? checker).getD 0

/-- What the results of one checker add up to. -/
def sumBy (outputs : List Output) (checker : String) : Tally :=
  ((outputs.filter fun output => output.checker == checker).map Output.tally).sum

theorem tally_eq_put (tallies : Table String Tally) (output : Output) :
    tally tallies output =
      tallies.put output.checker (tallyOf tallies output.checker + output.tally) := by
  unfold tally Output.tally tallyOf
  dsimp only
  split
  · rw [add_zero]; rfl
  · rfl

theorem tallyOf_tally (tallies : Table String Tally) (output : Output) (checker : String) :
    tallyOf (tally tallies output) checker =
      tallyOf tallies checker + if output.checker == checker then output.tally else 0 := by
  rw [tally_eq_put]
  by_cases h : output.checker = checker
  · subst h
    rw [if_pos (beq_self_eq_true _), tallyOf, Table.get?_put_self, Option.getD_some]
  · rw [if_neg (by simpa using h), add_zero, tallyOf,
      Table.get?_put_of_ne _ _ (Ne.symm h)]
    rfl

theorem sumBy_cons (output : Output) (outputs : List Output) (checker : String) :
    sumBy (output :: outputs) checker =
      (if output.checker == checker then output.tally else 0) + sumBy outputs checker := by
  unfold sumBy
  rw [List.filter_cons]
  split
  · rw [List.map_cons, List.sum_cons]
  · rw [zero_add]

theorem tallyOf_talliesOf (outputs : List Output) (checker : String) :
    tallyOf (talliesOf outputs) checker = sumBy outputs checker := by
  -- A tally only grows, by what the further results of its checker add.
  have hgrow (start : Table String Tally) :
      tallyOf (outputs.foldl tally start) checker =
        tallyOf start checker + sumBy outputs checker := by
    induction outputs generalizing start with
    | nil => exact (add_zero _).symm
    | cons output outputs ih =>
      rw [List.foldl_cons, ih, tallyOf_tally, sumBy_cons, add_assoc]
  exact (hgrow []).trans (zero_add _)

-- ---------------------------------------------------------------------------
-- The checkers that occur
-- ---------------------------------------------------------------------------

theorem mem_keys_tally (tallies : Table String Tally) (output : Output) (checker : String) :
    checker ∈ (tally tallies output).keys ↔ checker ∈ tallies.keys ∨ output.checker = checker := by
  rw [tally_eq_put, Table.mem_keys_put]

theorem mem_keys_talliesOf (outputs : List Output) (checker : String) :
    checker ∈ (talliesOf outputs).keys ↔ ∃ output ∈ outputs, output.checker = checker :=
  (Table.mem_keys_foldl mem_keys_tally outputs [] checker).trans (or_iff_right List.not_mem_nil)

theorem nodup_keys_talliesOf (outputs : List Output) : (talliesOf outputs).keys.Nodup := by
  refine List.foldlRecOn (motive := fun tallies => (Table.keys tallies).Nodup) outputs tally
    List.nodup_nil fun tallies hnodup output _ => ?_
  rw [tally_eq_put]
  exact Table.nodup_keys_put hnodup

-- ---------------------------------------------------------------------------
-- All tallies together
-- ---------------------------------------------------------------------------

theorem sum_put (tallies : Table String Tally) (checker : String) (more : Tally) :
    ((tallies.put checker (tallyOf tallies checker + more)).map Prod.snd).sum =
      (tallies.map Prod.snd).sum + more := by
  induction tallies with
  | nil => simp [Table.put, tallyOf]
  | cons entry rest ih =>
    by_cases h : entry.1 = checker
    · simp [Table.put, tallyOf, Table.get?_cons, h, add_right_comm]
    · have hrest : tallyOf (entry :: rest) checker = tallyOf rest checker := by
        simp [tallyOf, Table.get?_cons, h]
      rw [hrest, Table.put, if_neg h, List.map_cons, List.sum_cons, ih, List.map_cons,
        List.sum_cons, add_assoc]

theorem sum_talliesOf (outputs : List Output) :
    ((talliesOf outputs).map Prod.snd).sum = (outputs.map Output.tally).sum := by
  have hgrow (start : Table String Tally) :
      ((outputs.foldl tally start).map Prod.snd).sum =
        (start.map Prod.snd).sum + (outputs.map Output.tally).sum := by
    induction outputs generalizing start with
    | nil => exact (add_zero _).symm
    | cons output outputs ih =>
      rw [List.foldl_cons, ih, tally_eq_put, sum_put, List.map_cons, List.sum_cons, add_assoc]
  exact (hgrow []).trans (zero_add _)

theorem issueCountOf_eq_sum (outputs : List Output) :
    issueCountOf outputs = (outputs.map fun output => output.issues.length).sum :=
  List.length_flatMap

theorem sum_issues_talliesOf (outputs : List Output) :
    ((talliesOf outputs).map fun entry => entry.2.issues).sum = issueCountOf outputs := by
  calc ((talliesOf outputs).map fun entry => entry.2.issues).sum
      = (((talliesOf outputs).map Prod.snd).map Tally.issues).sum := by rw [List.map_map]; rfl
    _ = (outputs.map Output.tally).sum.issues := by rw [← Tally.sum_issues, sum_talliesOf]
    _ = (outputs.map fun output => output.issues.length).sum := by
        rw [Tally.sum_issues, List.map_map]
        exact congrArg List.sum (List.map_congr_left fun output _ => output.tally_issues)
    _ = issueCountOf outputs := (issueCountOf_eq_sum outputs).symm

theorem sumBy_issues (outputs : List Output) (checker : String) :
    (sumBy outputs checker).issues =
      issueCountOf (outputs.filter fun output => output.checker == checker) := by
  rw [issueCountOf_eq_sum, sumBy, Tally.sum_issues, List.map_map]
  exact congrArg List.sum (List.map_congr_left fun output _ => output.tally_issues)

-- ---------------------------------------------------------------------------
-- Distinct files
-- ---------------------------------------------------------------------------

/-- The files that some results are about. -/
def pathsOf (outputs : List Output) : Set String :=
  {path | ∃ output ∈ outputs, output.path = path}

/-- The files in which some result reports an issue. -/
def flaggedPathsOf (outputs : List Output) : Set String :=
  {path | ∃ output ∈ outputs, output.path = path ∧ output.issues ≠ []}

/-- The files in which a checker reports an issue. -/
def pathsFlaggedBy (outputs : List Output) (checker : String) : Set String :=
  {path | ∃ output ∈ outputs, output.checker = checker ∧ output.path = path ∧ output.issues ≠ []}

theorem coe_toFinset_map_path (outputs : List Output) :
    ((outputs.map Output.path).toFinset : Set String) = pathsOf outputs := by
  ext path
  simp [pathsOf]

theorem length_filesOf (outputs : List Output) : (filesOf outputs).length = (pathsOf outputs).ncard := by
  rw [← coe_toFinset_map_path, Set.ncard_coe_finset, filesOf,
    ← List.toFinset_card_of_nodup (Table.nodup_eraseDups _)]
  congr 1
  ext path
  simp

theorem pathsOf_filter_not_isEmpty (outputs : List Output) :
    pathsOf (outputs.filter fun output => !output.issues.isEmpty) = flaggedPathsOf outputs := by
  ext path
  simp [pathsOf, flaggedPathsOf, and_assoc, and_comm]

theorem length_flaggedFilesOf (outputs : List Output) :
    (flaggedFilesOf outputs).length = (flaggedPathsOf outputs).ncard := by
  rw [flaggedFilesOf, length_filesOf, pathsOf_filter_not_isEmpty]

theorem flaggedPathsOf_subset (outputs : List Output) : flaggedPathsOf outputs ⊆ pathsOf outputs := by
  rintro path ⟨output, hmem, hpath, -⟩
  exact ⟨output, hmem, hpath⟩

theorem finite_pathsOf (outputs : List Output) : (pathsOf outputs).Finite := by
  rw [← coe_toFinset_map_path]
  exact Finset.finite_toSet _

/-- If a checker has but one result for each file, it has as many results with issues as files in which
it reports any. -/
theorem sumBy_files {outputs : List Output}
    (hnodup : (outputs.map fun output => (output.checker, output.path)).Nodup) (checker : String) :
    (sumBy outputs checker).files = (pathsFlaggedBy outputs checker).ncard := by
  let own := outputs.filter fun output => output.checker == checker
  let flagged := own.filter fun output => !output.issues.isEmpty
  have hcount : (sumBy outputs checker).files = flagged.length := by
    rw [sumBy, Tally.sum_files, List.map_map]
    exact Output.sum_tally_files own
  -- The checker being fixed, results that differ as pairs differ in the file.
  have hpairs : flagged.map (fun output => (output.checker, output.path)) =
      (flagged.map Output.path).map (Prod.mk checker) := by
    rw [List.map_map]
    refine List.map_congr_left fun output hmem => ?_
    have hchecker := (List.mem_filter.1 (List.mem_filter.1 hmem).1).2
    rw [beq_iff_eq] at hchecker
    rw [hchecker]
    rfl
  have hdistinct : (flagged.map Output.path).Nodup := by
    refine List.Nodup.of_map (Prod.mk checker) ?_
    rw [← hpairs]
    exact hnodup.sublist ((List.filter_sublist.trans List.filter_sublist).map _)
  have hpaths : pathsOf flagged = pathsFlaggedBy outputs checker := by
    ext path
    simp only [flagged, own, pathsOf, pathsFlaggedBy, Set.mem_ofPred_eq, List.mem_filter,
      beq_iff_eq, Bool.not_eq_true', List.isEmpty_eq_false_iff]
    exact exists_congr fun output => by tauto
  rw [hcount, ← hpaths, ← coe_toFinset_map_path, Set.ncard_coe_finset,
    List.toFinset_card_of_nodup hdistinct, List.length_map]

-- ---------------------------------------------------------------------------
-- Other orders, and parts
-- ---------------------------------------------------------------------------

theorem get?_talliesOf (outputs : List Output) (checker : String) :
    (talliesOf outputs).get? checker =
      if checker ∈ outputs.map Output.checker then some (sumBy outputs checker) else none := by
  have hmem := mem_keys_talliesOf outputs checker
  rw [← List.mem_map] at hmem
  split
  · next hoccurs =>
    obtain ⟨tally, htally⟩ := Table.exists_get?_of_mem_keys (hmem.2 hoccurs)
    rw [← tallyOf_talliesOf, tallyOf, htally, Option.getD_some]
  · next hoccurs => exact Table.get?_eq_none (hoccurs ∘ hmem.1)

variable {first second : List Output}

theorem sumBy_perm (h : first.Perm second) (checker : String) :
    sumBy first checker = sumBy second checker :=
  ((h.filter _).map _).sum_eq

theorem sumBy_append (first second : List Output) (checker : String) :
    sumBy (first ++ second) checker = sumBy first checker + sumBy second checker := by
  rw [sumBy, List.filter_append, List.map_append, List.sum_append]
  rfl

theorem get?_talliesOf_perm (h : first.Perm second) (checker : String) :
    (talliesOf first).get? checker = (talliesOf second).get? checker := by
  simp only [get?_talliesOf, sumBy_perm h, (h.map _).mem_iff]

theorem sumBy_eq_zero {outputs : List Output} {checker : String}
    (h : checker ∉ outputs.map Output.checker) : sumBy outputs checker = 0 := by
  rw [← tallyOf_talliesOf, tallyOf, get?_talliesOf, if_neg h, Option.getD_none]

theorem get?_talliesOf_append (first second : List Output) (checker : String) :
    (talliesOf (first ++ second)).get? checker =
      ((talliesOf first).get? checker).merge (· + ·) ((talliesOf second).get? checker) := by
  simp only [get?_talliesOf, List.map_append, List.mem_append, sumBy_append]
  by_cases hfirst : checker ∈ first.map Output.checker
  · by_cases hsecond : checker ∈ second.map Output.checker
    · rw [if_pos (.inl hfirst), if_pos hfirst, if_pos hsecond]
      rfl
    · rw [if_pos (.inl hfirst), if_pos hfirst, if_neg hsecond, sumBy_eq_zero hsecond, add_zero]
      rfl
  · by_cases hsecond : checker ∈ second.map Output.checker
    · rw [if_pos (.inr hsecond), if_neg hfirst, if_pos hsecond, sumBy_eq_zero hfirst, zero_add]
      rfl
    · rw [if_neg (not_or.2 ⟨hfirst, hsecond⟩), if_neg hfirst, if_neg hsecond]
      rfl

theorem pathsOf_perm (h : first.Perm second) : pathsOf first = pathsOf second :=
  Set.ext fun _ => exists_congr fun _ => and_congr_left' h.mem_iff

theorem flaggedPathsOf_perm (h : first.Perm second) : flaggedPathsOf first = flaggedPathsOf second :=
  Set.ext fun _ => exists_congr fun _ => and_congr_left' h.mem_iff

theorem pathsFlaggedBy_perm (h : first.Perm second) (checker : String) :
    pathsFlaggedBy first checker = pathsFlaggedBy second checker :=
  Set.ext fun _ => exists_congr fun _ => and_congr_left' h.mem_iff

-- ---------------------------------------------------------------------------
-- Code bases
-- ---------------------------------------------------------------------------

/-- The figures of a code base account for every issue and every file of some results. -/
structure AccountsFor (codebase : Codebase) (outputs : List Output) : Prop where
  issues : codebase.issueCount = (outputs.map fun output => output.issues.length).sum
  talliedIssues : codebase.issueCount = (codebase.tallies.map fun entry => entry.2.issues).sum
  checkersNodup : codebase.tallies.keys.Nodup
  checkers : ∀ checker, checker ∈ codebase.tallies.keys ↔
    ∃ output ∈ outputs, output.checker = checker
  talliedIssuesOf : ∀ entry ∈ codebase.tallies, entry.2.issues =
    issueCountOf (outputs.filter fun output => output.checker == entry.1)
  talliedFiles : (outputs.map fun output => (output.checker, output.path)).Nodup →
    ∀ entry ∈ codebase.tallies, entry.2.files = (pathsFlaggedBy outputs entry.1).ncard
  files : codebase.fileCount = (pathsOf outputs).ncard
  flagged : (flaggedPathsOf outputs).ncard ≤ codebase.fileCount
  summary : summaryText codebase.grade codebase.score codebase.fileCount
    (flaggedPathsOf outputs).ncard = .ok codebase.summary

/-- Two code bases have the same figures, the order of the tallies apart. -/
structure HasFiguresOf (codebase other : Codebase) : Prop where
  issueCount : codebase.issueCount = other.issueCount
  fileCount : codebase.fileCount = other.fileCount
  tallies : ∀ checker, codebase.tallies.get? checker = other.tallies.get? checker

variable {outputs : List Output} {failures : List Failure} {codebase : Codebase}

/-- Where the figures of a code base come from. -/
theorem figures_of_ofOutputs (h : ofOutputs outputs failures = .ok codebase) :
    codebase.issueCount = issueCountOf outputs ∧
    codebase.fileCount = (filesOf outputs).length ∧
    codebase.tallies = talliesOf outputs ∧
    summaryText codebase.grade codebase.score codebase.fileCount
      (flaggedFilesOf outputs).length = .ok codebase.summary := by
  obtain ⟨score, -, h⟩ := exists_eq_ok_of_bind h
  obtain ⟨summary, hsummary, h⟩ := exists_eq_ok_of_bind h
  cases h
  exact ⟨rfl, rfl, rfl, hsummary⟩

theorem snd_of_mem_talliesOf {entry : String × Tally} (h : entry ∈ talliesOf outputs) :
    entry.2 = sumBy outputs entry.1 := by
  rw [← tallyOf_talliesOf, tallyOf, Table.get?_of_mem (nodup_keys_talliesOf outputs) h,
    Option.getD_some]

theorem accountsFor_of_ofOutputs (h : ofOutputs outputs failures = .ok codebase) :
    codebase.AccountsFor outputs := by
  obtain ⟨hissues, hfiles, htallies, hsummary⟩ := figures_of_ofOutputs h
  rw [length_filesOf] at hfiles
  rw [length_flaggedFilesOf] at hsummary
  exact {
    issues := hissues.trans (issueCountOf_eq_sum outputs)
    talliedIssues := by rw [hissues, htallies, sum_issues_talliesOf]
    checkersNodup := htallies ▸ nodup_keys_talliesOf outputs
    checkers := fun checker => htallies ▸ mem_keys_talliesOf outputs checker
    talliedIssuesOf := by
      intro entry hentry
      rw [snd_of_mem_talliesOf (htallies ▸ hentry), sumBy_issues]
    talliedFiles := by
      intro hnodup entry hentry
      rw [snd_of_mem_talliesOf (htallies ▸ hentry), sumBy_files hnodup]
    files := hfiles
    flagged := hfiles ▸ Set.ncard_le_ncard (flaggedPathsOf_subset outputs) (finite_pathsOf outputs)
    summary := hsummary }

/-- Results in another order account for the same. -/
theorem AccountsFor.of_perm (h : codebase.AccountsFor second) (hperm : first.Perm second) :
    codebase.AccountsFor first where
  issues := h.issues.trans ((hperm.map _).sum_eq).symm
  talliedIssues := h.talliedIssues
  checkersNodup := h.checkersNodup
  checkers checker := (h.checkers checker).trans
    (exists_congr fun _ => and_congr_left' hperm.mem_iff.symm)
  talliedIssuesOf entry hentry := by
    rw [h.talliedIssuesOf entry hentry, issueCountOf_eq_sum, issueCountOf_eq_sum]
    exact (((hperm.filter _).map _).sum_eq).symm
  talliedFiles hnodup entry hentry := by
    rw [h.talliedFiles ((hperm.map _).nodup_iff.1 hnodup) entry hentry, pathsFlaggedBy_perm hperm]
  files := by rw [h.files, pathsOf_perm hperm]
  flagged := by rw [flaggedPathsOf_perm hperm]; exact h.flagged
  summary := by rw [flaggedPathsOf_perm hperm]; exact h.summary

/-- The figures of a code base conserve what the results report: every issue is counted once, in all and
at its checker, and every file once. The same results in another order give the same figures, and those of
two parts of the results add up, checker by checker. -/
theorem figures_conserved (outputs : List Output) (failures : List Failure) :
    ((∀ score, some score ∈ outputs.map Output.score → Score.IsModest score) →
      outputs.length < 2 ^ 1023 → ∃ codebase, ofOutputs outputs failures = .ok codebase) ∧
    ∀ codebase, ofOutputs outputs failures = .ok codebase →
      codebase.AccountsFor outputs ∧
      (∀ reordered others again, outputs.Perm reordered →
        ofOutputs reordered others = .ok again →
        again.AccountsFor outputs ∧ again.HasFiguresOf codebase) ∧
      ∀ front back, outputs = front ++ back →
        ∀ failuresOfFront failuresOfBack codebaseOfFront codebaseOfBack,
          ofOutputs front failuresOfFront = .ok codebaseOfFront →
          ofOutputs back failuresOfBack = .ok codebaseOfBack →
          ∀ checker, codebase.tallies.get? checker =
            (codebaseOfFront.tallies.get? checker).merge (· + ·)
              (codebaseOfBack.tallies.get? checker) := by
  refine ⟨fun hmodest hlength => ofOutputs_ok_of_scores hmodest hlength failures, ?_⟩
  intro codebase h
  obtain ⟨hissues, hfiles, htallies, -⟩ := figures_of_ofOutputs h
  refine ⟨accountsFor_of_ofOutputs h, ?reorder, ?parts⟩
  case reorder =>
    intro reordered others again hperm hagain
    obtain ⟨hissues', hfiles', htallies', -⟩ := figures_of_ofOutputs hagain
    refine ⟨(accountsFor_of_ofOutputs hagain).of_perm hperm, ?_, ?_, fun checker => ?_⟩
    · rw [hissues, hissues', issueCountOf_eq_sum, issueCountOf_eq_sum, (hperm.map _).sum_eq]
    · rw [hfiles, hfiles', length_filesOf, length_filesOf, pathsOf_perm hperm]
    · rw [htallies, htallies', get?_talliesOf_perm hperm]
  case parts =>
    rintro front back rfl _ _ codebaseOfFront codebaseOfBack hfront hback checker
    rw [htallies, (figures_of_ofOutputs hfront).2.2.1, (figures_of_ofOutputs hback).2.2.1,
      get?_talliesOf_append]

/-- So many issues of a checker in a file. -/
def reportOn (checker path : String) (count : Nat) : Output where
  checker
  path
  issues := List.replicate count
    { message := "m", severity := .medium, location := none, context := none,
      explanation := none, fix := none }
  grade := .fair
  score := some (Quantity.halves 140)
  summary := ""

/-- Results of two checkers for two files, one of them without issues. -/
def interleaved : List Output :=
  [reportOn "playwrightHardWaits" "a" 2, reportOn "raceConditionAnalysis" "a" 1,
    reportOn "playwrightHardWaits" "b" 0, reportOn "raceConditionAnalysis" "b" 3]

theorem figures_conserved_interleaved : ∃ codebase again codebaseOfFront codebaseOfBack,
    ofOutputs interleaved [] = .ok codebase ∧
    ofOutputs interleaved.reverse [] = .ok again ∧
    ofOutputs (interleaved.take 3) [] = .ok codebaseOfFront ∧
    ofOutputs (interleaved.drop 3) [] = .ok codebaseOfBack ∧
    codebase.AccountsFor interleaved ∧
    again.AccountsFor interleaved ∧ again.HasFiguresOf codebase ∧
    codebase.tallies.get? "raceConditionAnalysis" = some ⟨2, 4⟩ ∧
    codebase.tallies.get? "raceConditionAnalysis" =
      (codebaseOfFront.tallies.get? "raceConditionAnalysis").merge (· + ·)
        (codebaseOfBack.tallies.get? "raceConditionAnalysis") := by
  have hmodest : ∀ outputs : List Output, (∀ output ∈ outputs, output ∈ interleaved) →
      ∀ score, some score ∈ outputs.map Output.score → Score.IsModest score := by
    intro outputs hsub score hscore
    obtain ⟨output, hmem, hscore⟩ := List.mem_map.1 hscore
    have hall : ∀ output ∈ interleaved, output.score = some (Quantity.halves 140) := by decide
    rw [hall output (hsub output hmem), Option.some_inj] at hscore
    exact ⟨_, hscore.symm, Double.halves_isAtMost 140 (by decide) (by norm_num)⟩
  have hfew : ∀ n ≤ 4, n < 2 ^ 1023 := by
    intro n hn
    refine n.lt_two_pow_self.trans_le (pow_le_pow_right₀ one_le_two (hn.trans ?_))
    norm_num
  obtain ⟨codebase, h⟩ := (figures_conserved interleaved []).1
    (hmodest _ fun _ => id) (hfew _ (by decide))
  obtain ⟨again, hagain⟩ := (figures_conserved interleaved.reverse []).1
    (hmodest _ fun _ => List.mem_reverse.1) (hfew _ (by decide))
  obtain ⟨codebaseOfFront, hfront⟩ := (figures_conserved (interleaved.take 3) []).1
    (hmodest _ fun _ => List.mem_of_mem_take) (hfew _ (by decide))
  obtain ⟨codebaseOfBack, hback⟩ := (figures_conserved (interleaved.drop 3) []).1
    (hmodest _ fun _ => List.mem_of_mem_drop) (hfew _ (by decide))
  obtain ⟨haccounts, hreorder, hparts⟩ := (figures_conserved interleaved []).2 codebase h
  obtain ⟨haccounts', hsame⟩ := hreorder _ [] again (List.reverse_perm interleaved).symm hagain
  have hparts := hparts (interleaved.take 3) (interleaved.drop 3) (List.take_append_drop 3 _).symm
    [] [] codebaseOfFront codebaseOfBack hfront hback "raceConditionAnalysis"
  have htally : codebase.tallies.get? "raceConditionAnalysis" = some ⟨2, 4⟩ := by
    rw [(figures_of_ofOutputs h).2.2.1]
    decide
  exact ⟨codebase, again, codebaseOfFront, codebaseOfBack, h, hagain, hfront, hback, haccounts,
    haccounts', hsame, htally, hparts⟩

end Codebase

end FlakeLint
