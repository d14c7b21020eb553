-- SUMMARY: Which paths an exclusion matches, component by component.
import FlakeLint.Discovery
import FlakeLint.Proofs.Disk.Paths

/-!
# Exclusions

A pattern is compared with whole components of a path, never with a part of one.
Without a slash it has to be a component. With one it names a place by its path, and
it matches what lies below that place; the place itself it misses.
-/

namespace FlakeLint.Discovery

open FlakeLint.Path (join isStep)
open FlakeLint.Text (splitOn)

-- ---------------------------------------------------------------------------
-- Patterns and their components
-- ---------------------------------------------------------------------------

/-- What stands between the slashes of a pattern, those at its end left out. -/
def componentsOf (pattern : String) : List String :=
  (splitOn '/' (dropSlashes pattern).toList).map String.ofList

/-- The pattern is a component of the path, or it holds a slash and its components are the first ones of
the path: it names the path itself or something above it. -/
def IsNamedBy (names : List String) (pattern : String) : Prop :=
  pattern ∈ names ∨ '/' ∈ pattern.toList ∧ componentsOf pattern <+: names

theorem contains_slash_iff {pattern : String} : Text.contains pattern "/" ↔ '/' ∈ pattern.toList := by
  rw [Text.contains, Text.containsChars_iff, show "/".toList = ['/'] from rfl, List.singleton_infix_iff]

theorem dropSlashes_eq_self {pattern : String} (h : pattern.toList.getLast? ≠ some '/') :
    dropSlashes pattern = pattern := by
  have hdrop : pattern.toList.reverse.dropWhile (· == '/') = pattern.toList.reverse := by
    rw [← List.head?_reverse] at h
    cases hcs : pattern.toList.reverse with
    | nil => rfl
    | cons c cs =>
      rw [hcs, List.head?_cons, ne_eq, Option.some_inj] at h
      exact List.dropWhile_cons_of_neg (by simpa using h)
  rw [dropSlashes, hdrop, List.reverse_reverse, String.ofList_toList]

section

variable {names : List String} (h : ∀ name ∈ names, isStep name)
include h

theorem slash_not_mem_of_isStep {name : String} (hname : name ∈ names) : '/' ∉ name.toList :=
  (Path.isStep_iff.1 (h name hname)).2.2

theorem ne_slash_of_mem_map : ∀ piece ∈ names.map String.toList, ∀ c ∈ piece, c ≠ '/' := by
  simp only [List.forall_mem_map]
  rintro name hname c hc rfl
  exact slash_not_mem_of_isStep h hname hc

theorem getLast?_join_ne : (join names).toList.getLast? ≠ some '/' := by
  rcases List.eq_nil_or_concat' names with rfl | ⟨first, last, rfl⟩
  · decide
  · obtain ⟨cs, hcs⟩ : last.toList <:+ (join (first ++ [last])).toList :=
      Text.suffix_intercalate first last
    have hlast : last.toList ≠ [] := fun hnil =>
      (Path.isStep_iff.1 (h last (by simp))).1 (String.toList_injective hnil)
    rw [← hcs, List.getLast?_append_of_ne_nil _ hlast]
    intro hslash
    exact slash_not_mem_of_isStep h (by simp) (List.mem_of_getLast? hslash)

/-- A path as a pattern has the components of the path. -/
theorem componentsOf_join (hne : names ≠ []) : componentsOf (join names) = names := by
  rw [componentsOf, dropSlashes_eq_self (getLast?_join_ne h), Path.toList_join,
    Text.splitOn_intercalate (by simpa using hne) (ne_slash_of_mem_map h)]
  simp [Function.comp_def]

-- ---------------------------------------------------------------------------
-- What a pattern matches
-- ---------------------------------------------------------------------------

/-- A path begins with a pattern and a slash if it lies below what the components name. -/
theorem startsWith_slash_iff (pattern : String) :
    Text.startsWith (join names) (dropSlashes pattern ++ "/") ↔
      ∃ rest, rest ≠ [] ∧ componentsOf pattern ++ rest = names := by
  rw [Text.startsWith_iff, String.toList_append, show "/".toList = ['/'] from rfl, Path.toList_join,
    Text.concat_prefix_intercalate_iff (ne_slash_of_mem_map h)]
  constructor
  · rintro ⟨rest, hrest, heq⟩
    refine ⟨rest.map String.ofList, by simpa using hrest, ?_⟩
    rw [componentsOf, ← List.map_append, heq, List.map_map]
    simp [Function.comp_def]
  · rintro ⟨rest, hrest, rfl⟩
    refine ⟨rest.map String.toList, by simpa using hrest, ?_⟩
    rw [componentsOf, List.map_append, List.map_map]
    simp [Function.comp_def]

theorem matchesPattern_join_iff (pattern : String) : matchesPattern (join names) pattern ↔
    pattern ∈ names ∨
      '/' ∈ pattern.toList ∧ ∃ rest, rest ≠ [] ∧ componentsOf pattern ++ rest = names := by
  rw [matchesPattern, Bool.or_eq_true, Bool.and_eq_true, Path.parts_join h, List.contains_iff_mem,
    contains_slash_iff, startsWith_slash_iff h]

/-- A place that is named by its path is matched itself only if the path has a single component. -/
theorem matchesPattern_join_append_iff {directories rest : List String}
    (heq : directories ++ rest = names) (hne : directories ≠ []) :
    matchesPattern (join names) (join directories) ↔ rest ≠ [] ∨ directories.length = 1 := by
  have hsteps : ∀ name ∈ directories, isStep name := fun name hname =>
    h name (heq ▸ List.mem_append_left rest hname)
  rw [matchesPattern_join_iff h, componentsOf_join hsteps hne]
  match directories, hne with
  | [name], _ => simp [← heq]
  | first :: next :: others, _ =>
    have hslash : '/' ∈ (join (first :: next :: others)).toList := by
      simp [Path.toList_join, List.intercalate_cons_cons]
    have hpart : join (first :: next :: others) ∉ names := fun hmem =>
      slash_not_mem_of_isStep h hmem hslash
    constructor
    · rintro (hmem | ⟨-, below, hbelow, hbelow'⟩)
      · exact absurd hmem hpart
      · exact .inl (List.append_cancel_left (hbelow'.trans heq.symm) ▸ hbelow)
    · rintro (hrest | hlength)
      · exact .inr ⟨hslash, rest, hrest, heq⟩
      · simp at hlength

end

/-- A path matches a pattern that names it, or names something above it, except where the pattern names
the path itself by more than a component. So a pattern that is a path excludes everything below, and what
stands at the path only if the path has a single component. -/
theorem matchesPattern_iff_isNamedBy {names : List String} (h : ∀ name ∈ names, isStep name)
    (pattern : String) :
    (matchesPattern (join names) pattern ↔
      IsNamedBy names pattern ∧ ¬ ('/' ∈ pattern.toList ∧ componentsOf pattern = names)) ∧
    ∀ directories rest, directories ++ rest = names → directories ≠ [] →
      (matchesPattern (join names) (join directories) ↔ rest ≠ [] ∨ directories.length = 1) := by
  refine ⟨?_, fun directories rest heq hne => matchesPattern_join_append_iff h heq hne⟩
  rw [matchesPattern_join_iff h, IsNamedBy]
  constructor
  · rintro (hmem | ⟨hslash, rest, hrest, heq⟩)
    · exact ⟨.inl hmem, fun hitself => slash_not_mem_of_isStep h hmem hitself.1⟩
    · refine ⟨.inr ⟨hslash, rest, heq⟩, fun hitself => hrest ?_⟩
      exact List.append_right_eq_self.1 (heq.trans hitself.2.symm)
  · rintro ⟨hmem | ⟨hslash, rest, heq⟩, hnot⟩
    · exact .inl hmem
    · refine .inr ⟨hslash, rest, ?_, heq⟩
      rintro rfl
      exact hnot ⟨hslash, by simpa using heq⟩

/-- A file is excluded by the path of its directory but not by its own path, which names it all the same;
the first letters of a component name nothing. -/
theorem matchesPattern_of_own_path :
    let names := ["cypress", "e2e", "a.cy.js"]
    (∀ name ∈ names, isStep name) ∧
    matchesPattern (join names) "cypress/e2e/" ∧
    IsNamedBy names "cypress/e2e/a.cy.js" ∧
    matchesPattern (join names) "cypress/e2e/a.cy.js" = false ∧
    ¬ IsNamedBy names "cypress/e2" := by
  intro names
  have hsteps : ∀ name ∈ names, isStep name := by decide +kernel
  have hmatches (pattern : String) := (matchesPattern_iff_isNamedBy hsteps pattern).1
  have hbelow : componentsOf "cypress/e2e/" = ["cypress", "e2e"] := rfl
  have hown : componentsOf "cypress/e2e/a.cy.js" = names := rfl
  have hpart : componentsOf "cypress/e2" = ["cypress", "e2"] := rfl
  have hslash : '/' ∈ "cypress/e2e/a.cy.js".toList := by decide +kernel
  refine ⟨hsteps, (hmatches _).2 ⟨.inr ⟨by decide +kernel, ?_⟩, ?_⟩, .inr ⟨hslash, hown ▸ List.prefix_rfl⟩,
    ?_, ?_⟩
  · rw [hbelow]
    exact ⟨["a.cy.js"], rfl⟩
  · rw [hbelow]
    exact fun hitself => absurd hitself.2 (by decide +kernel)
  · rw [← Bool.not_eq_true, hmatches]
    exact fun hmatch => hmatch.2 ⟨hslash, hown⟩
  · rw [IsNamedBy, hpart]
    decide +kernel

end FlakeLint.Discovery
