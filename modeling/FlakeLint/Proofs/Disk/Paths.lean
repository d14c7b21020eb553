-- SUMMARY: Paths that are joined from steps, and the steps of paths.
import FlakeLint.Path
import FlakeLint.Proofs.Text.Lines
import FlakeLint.Proofs.Text.Words

/-!
# Paths and their steps

A path that is joined from steps has just these steps, and a path leads the same
way when it is written without what means nothing.
-/

namespace FlakeLint.Path

open FlakeLint.Text

/-- Can the text be a step of a path: is it neither empty nor a dot, and free of slashes? -/
def isStep (name : String) : Bool :=
  name != "" && name != "." && !name.toList.contains '/'

theorem isStep_iff {name : String} :
    isStep name ↔ name ≠ "" ∧ name ≠ "." ∧ '/' ∉ name.toList := by
  simp [isStep, and_assoc]

theorem isStep_of_mem_steps {path step : String} (h : step ∈ steps path) : isStep step := by
  obtain ⟨piece, hpiece, rfl⟩ := List.mem_map.1 h
  obtain ⟨hmem, hkept⟩ := List.mem_filter.1 hpiece
  have hslash := ne_of_mem_splitOn hmem
  simp only [Bool.and_eq_true, bne_iff_ne] at hkept
  refine isStep_iff.2 ⟨fun hempty => hkept.1 ?_, fun hdot => hkept.2 ?_, fun hmem => ?_⟩
  · simpa using congrArg String.toList hempty
  · simpa using congrArg String.toList hdot
  · exact hslash '/' (by simpa using hmem) rfl

-- ---------------------------------------------------------------------------
-- Joined paths
-- ---------------------------------------------------------------------------

theorem toList_join (names : List String) :
    (join names).toList = ['/'].intercalate (names.map String.toList) := by
  rw [join, String.toList_intercalate]
  rfl

theorem join_append {first second : List String} (hfirst : first ≠ []) (hsecond : second ≠ []) :
    join (first ++ second) = join first ++ "/" ++ join second :=
  String.intercalate_append_of_ne_nil hfirst hsecond

@[simp] theorem join_singleton (name : String) : join [name] = name :=
  String.intercalate_singleton

theorem mem_join {names : List String} {c : Char} (h : c ∈ (join names).toList) :
    c = '/' ∨ ∃ name ∈ names, c ∈ name.toList := by
  rw [toList_join] at h
  induction names with
  | nil => simp at h
  | cons name names ih =>
    cases names with
    | nil => exact .inr ⟨name, by simpa using h⟩
    | cons next names =>
      simp only [List.map_cons, List.intercalate_cons_cons, List.mem_append,
        List.mem_singleton] at h ih
      rcases h with (h | h) | h
      · exact .inr ⟨name, List.mem_cons_self, h⟩
      · exact .inl h
      · rcases ih h with h | ⟨other, hother, h⟩
        · exact .inl h
        · exact .inr ⟨other, List.mem_cons_of_mem _ hother, h⟩

section

variable {names : List String} (h : ∀ name ∈ names, isStep name)
include h

theorem stepsOf_join : stepsOf (join names).toList = names.map String.toList := by
  have hpieces : ∀ piece ∈ names.map String.toList, ∀ c ∈ piece, c ≠ '/' := by
    simp only [List.forall_mem_map]
    rintro name hname c hc rfl
    exact (isStep_iff.1 (h name hname)).2.2 hc
  rw [toList_join]
  cases names with
  | nil => rfl
  | cons name names =>
    rw [stepsOf, splitOn_intercalate (by simp) hpieces, List.filter_eq_self]
    simp only [List.forall_mem_map]
    intro other hother
    have hstep := isStep_iff.1 (h other hother)
    simp only [Bool.and_eq_true, bne_iff_ne]
    exact ⟨fun hempty => hstep.1 (by simpa using hempty),
      fun hdot => hstep.2.1 (String.toList_injective hdot)⟩

/-- A joined path has the steps that it was joined from. -/
theorem steps_join : steps (join names) = names := by
  simp [steps, stepsOf_join h, Function.comp_def]

theorem head?_join_ne : (join names).toList.head? ≠ some '/' := by
  rw [toList_join]
  cases names with
  | nil => simp
  | cons name names =>
    have hstep := isStep_iff.1 (h name List.mem_cons_self)
    obtain ⟨c, cs, hname⟩ := List.exists_cons_of_ne_nil
      (fun hnil => hstep.1 (String.toList_injective hnil) : name.toList ≠ [])
    rw [hname, List.mem_cons, not_or] at hstep
    cases names <;> simpa [hname, List.intercalate_cons_cons] using Ne.symm hstep.2.2.1

end

-- ---------------------------------------------------------------------------
-- Roots
-- ---------------------------------------------------------------------------

theorem rootOf_eq_nil_iff {cs : List Char} : rootOf cs = [] ↔ cs.head? ≠ some '/' := by
  cases cs with
  | nil => simp [rootOf]
  | cons c cs =>
    by_cases hc : c = '/'
    · subst hc
      unfold rootOf
      split <;> simp_all
    · simp [rootOf, hc]

theorem isAbsolute_iff {path : String} : isAbsolute path ↔ path.toList.head? = some '/' := by
  simp [isAbsolute, rootOf_eq_nil_iff]

/-- The root of a path consists of slashes. -/
theorem eq_slash_of_mem_rootOf {cs : List Char} {c : Char} (h : c ∈ rootOf cs) : c = '/' := by
  unfold rootOf at h
  split at h <;> simp_all

theorem stepsOf_slashes_append {root : List Char} (h : ∀ c ∈ root, c = '/') (cs : List Char) :
    stepsOf (root ++ cs) = stepsOf cs := by
  induction root with
  | nil => rfl
  | cons c root ih =>
    rw [List.forall_mem_cons] at h
    rw [← ih h.2, h.1, List.cons_append, stepsOf, splitOn_cons_self]
    rfl

section

variable {names : List String} (h : ∀ name ∈ names, isStep name)
include h

theorem parts_join : parts (join names) = names := by
  have hroot : rootOf (join names).toList = [] := rootOf_eq_nil_iff.2 (head?_join_ne h)
  simp [parts, hroot, steps_join h]

theorem name_join : name (join names) = names.getLast?.getD "" := by
  simp [name, steps_join h]

theorem parentParts_join : parentParts (join names) = names.dropLast := by
  unfold parentParts
  rw [parts_join h, steps_join h]
  cases names <;> rfl

end

-- ---------------------------------------------------------------------------
-- Backslashes
-- ---------------------------------------------------------------------------

theorem slashed_eq_self {path : String} (h : '\\' ∉ path.toList) : slashed path = path := by
  have hmap : path.toList.map (fun c => if c == '\\' then '/' else c) = path.toList := by
    refine (List.map_congr_left fun c hc => ?_).trans (List.map_id _)
    have hc' : c ≠ '\\' := fun heq => h (heq ▸ hc)
    simp [hc']
  rw [slashed, hmap, String.ofList_toList]

-- ---------------------------------------------------------------------------
-- Paths written without what means nothing
-- ---------------------------------------------------------------------------

section

variable (path : String)

theorem isStep_steps : ∀ step ∈ steps path, isStep step := fun _ => isStep_of_mem_steps

theorem steps_normalized : steps (normalized path) = steps path := by
  have htext : stepsOf (String.ofList (rootOf path.toList) ++ join (steps path)).toList =
      (steps path).map String.toList := by
    rw [String.toList_append, String.toList_ofList,
      stepsOf_slashes_append fun c hc => eq_slash_of_mem_rootOf hc,
      stepsOf_join (isStep_steps path)]
  unfold normalized
  dsimp only
  split
  · next hempty =>
    rw [hempty] at htext
    exact (List.map_eq_nil_iff.1 htext.symm).symm
  · rw [steps, htext]
    simp [Function.comp_def]

theorem isAbsolute_normalized : isAbsolute (normalized path) = isAbsolute path := by
  rw [Bool.eq_iff_iff, isAbsolute_iff]
  unfold isAbsolute normalized
  have hjoin := head?_join_ne (isStep_steps path)
  cases hroot : rootOf path.toList with
  | nil =>
    by_cases hempty : join (steps path) = "" <;> simp [hempty, hjoin]
  | cons c root =>
    have hc : c = '/' := eq_slash_of_mem_rootOf (hroot ▸ List.mem_cons_self)
    simp [hc]

end

end FlakeLint.Path
