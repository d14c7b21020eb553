-- SUMMARY: How the paths of found files are shown, and which of them look the same.
import FlakeLint.Discovery
import FlakeLint.Proofs.Disk.Places

/-!
# Shown paths

A path is shown from the project on if it lies there, and else from the root on, with
slashes for backslashes. The paths of the files that one search finds all start alike.
So unless some of them lie in the project and others do not, two of them are shown
alike exactly if they differ in nothing but slashes and backslashes.
-/

namespace FlakeLint

-- ---------------------------------------------------------------------------
-- Steps and roots
-- ---------------------------------------------------------------------------

namespace Path

variable {names done : List String} {path : String}

theorem slashed_append (s t : String) : slashed (s ++ t) = slashed s ++ slashed t := by
  simp [slashed]

/-- What stands before two texts alike does not matter for whether they differ in slashes only. -/
theorem slashed_append_inj {start s t : String} :
    slashed (start ++ s) = slashed (start ++ t) ↔ slashed s = slashed t := by
  rw [slashed_append, slashed_append, String.append_right_inj]

theorem steps_append_slash (s t : String) : steps (s ++ "/" ++ t) = steps s ++ steps t := by
  have hlist : (s ++ "/" ++ t).toList = s.toList ++ '/' :: t.toList := by simp
  unfold steps stepsOf
  rw [hlist, Text.splitOn_append_cons, List.filter_append, List.map_append]

/-- The root of a path is among the slashes that the path begins with. -/
theorem rootOf_append {cs ds : List Char} (h : ds.head? ≠ some '/') :
    rootOf (cs ++ ds) = rootOf cs := by
  have hds : ds.takeWhile (· == '/') = [] := by
    cases ds with
    | nil => rfl
    | cons c ds =>
      have hc : c ≠ '/' := fun heq => h (congrArg some heq)
      exact List.takeWhile_cons_of_neg (by simpa using hc)
  have hall : (cs ++ ds).takeWhile (· == '/') = cs.takeWhile (· == '/') := by
    rw [List.takeWhile_append, hds, List.append_nil]
    split
    · next hwhole => exact ((List.takeWhile_prefix _).eq_of_length hwhole).symm
    · rfl
  unfold rootOf
  rw [hall]

theorem normalized_ne_empty (path : String) : normalized path ≠ "" := by
  unfold normalized
  dsimp only
  split
  · decide
  · next hne => exact hne

theorem normalized_join (hne : names ≠ []) (hnames : ∀ name ∈ names, isStep name) :
    normalized (join names) = join names := by
  have hroot : rootOf (join names).toList = [] := rootOf_eq_nil_iff.2 (head?_join_ne hnames)
  have htext : join names ≠ "" := by
    intro hempty
    have hsteps := steps_join hnames
    rw [hempty] at hsteps
    exact hne (hsteps.symm.trans (by decide))
  unfold normalized
  rw [hroot, steps_join hnames, String.ofList_nil, String.empty_append, if_neg htext]

/-- Joined steps begin with what the first ones come to. -/
theorem exists_join_append (before : List String) :
    ∃ start, ∀ names, names ≠ [] → join (before ++ names) = start ++ join names := by
  by_cases hbefore : before = []
  · subst hbefore
    exact ⟨"", fun names _ => by simp⟩
  · exact ⟨join before ++ "/", fun names hnames => join_append hbefore hnames⟩

-- ---------------------------------------------------------------------------
-- Steps that lead up
-- ---------------------------------------------------------------------------

theorem settle_of_notMem (h : ".." ∉ names) : settle done names = done.reverse ++ names := by
  induction names generalizing done with
  | nil => simp [settle]
  | cons name names ih =>
    rw [List.mem_cons, not_or] at h
    rw [settle, if_neg (Ne.symm h.1), ih h.2]
    simp

theorem settle_append (first second : List String) :
    settle done (first ++ second) = settle (settle done first).reverse second := by
  induction first generalizing done with
  | nil => simp [settle]
  | cons step first ih =>
    rw [List.cons_append, settle, settle]
    split
    · exact ih
    · exact ih

end Path

namespace Disk

open FlakeLint.Path (steps settle stepsFromRoot isAbsolute)

/-- Steps that can be followed settle to the place that they lead to. -/
theorem settle_of_follow {root : Entry} {place found names : List String}
    (h : follow root place names = .ok found) : settle place.reverse names = found := by
  induction names generalizing place with
  | nil =>
    cases h
    simp [settle]
  | cons step names ih =>
    unfold follow at h
    split at h
    · rw [settle]
      split at h
      · next hup =>
        rw [if_pos hup, List.tail_reverse]
        exact ih h
      · next hdown =>
        rw [if_neg hdown]
        have hnext := ih h
        rwa [List.reverse_append, List.reverse_singleton, List.singleton_append] at hnext
    · cases h
    · cases h

variable {disk : Disk} {path : String}

/-- A path that leads to a place has the steps to it, once what leads up is settled. -/
theorem stepsFromRoot_of_place {place : List String} (h : disk.place path = .ok place) :
    stepsFromRoot disk.cwd path = place := by
  have hsettled := settle_of_follow h
  unfold stepsFromRoot
  rw [List.reverse_nil, start] at hsettled
  split at hsettled
  · next habsolute => rwa [if_pos habsolute]
  · next hrelative => rwa [if_neg hrelative]

/-- Does a path lead to a directory that the project lies below? -/
def LeadsAboveHome (disk : Disk) (path : String) : Prop :=
  ∃ below, below ≠ [] ∧ steps disk.home = stepsFromRoot disk.cwd path ++ below

theorem not_leadsAboveHome (h : stepsFromRoot disk.cwd path = steps disk.home) :
    ¬ disk.LeadsAboveHome path := by
  rintro ⟨below, hne, hhome⟩
  rw [h, List.self_eq_append_right] at hhome
  exact hne hhome

end Disk

-- ---------------------------------------------------------------------------
-- Paths of found files
-- ---------------------------------------------------------------------------

namespace Discovery

open FlakeLint.Path (steps slashed normalized stepsFromRoot shown rootOf isAbsolute isStep join)

theorem exists_startOf_eq (path : String) :
    ∃ start, startOf path = start ++ "/" ∧ steps start = steps path := by
  unfold startOf
  dsimp only
  split
  · next hslash =>
    obtain ⟨reversed, hreversed⟩ := Text.isSome_afterPrefix_iff.1 hslash
    have hlist : (normalized path).toList = reversed.reverse ++ ['/'] := by
      rw [← List.reverse_reverse (normalized path).toList, ← hreversed, List.reverse_append]
      simp
    have htext : normalized path = String.ofList reversed.reverse ++ "/" := by
      rw [← String.ofList_toList (s := normalized path), hlist, String.ofList_append]
    refine ⟨String.ofList reversed.reverse, htext, ?_⟩
    have hsteps := Path.steps_append_slash (String.ofList reversed.reverse) ""
    rw [String.append_empty, ← htext, Path.steps_normalized] at hsteps
    rw [hsteps]
    exact (List.append_nil _).symm
  · exact ⟨normalized path, rfl, Path.steps_normalized path⟩

theorem isAbsolute_startOf (path : String) : isAbsolute (startOf path) = isAbsolute path := by
  have hne : (normalized path).toList ≠ [] := by
    intro hnil
    exact Path.normalized_ne_empty path (String.toList_injective hnil)
  have hhead : (startOf path).toList.head? = (normalized path).toList.head? := by
    unfold startOf
    dsimp only
    split
    · rfl
    · rw [String.toList_append, List.head?_append_of_ne_nil _ hne]
  rw [← Path.isAbsolute_normalized path, Bool.eq_iff_iff, Path.isAbsolute_iff, Path.isAbsolute_iff,
    hhead]

section

variable {names : List String} (hnames : ∀ name ∈ names, isStep name)
include hnames

theorem steps_startOf_append (path : String) :
    steps (startOf path ++ join names) = steps path ++ names := by
  obtain ⟨start, hstart, hsteps⟩ := exists_startOf_eq path
  rw [hstart, Path.steps_append_slash, hsteps, Path.steps_join hnames]

theorem rootOf_startOf_append (path : String) :
    rootOf (startOf path ++ join names).toList = rootOf (startOf path).toList := by
  rw [String.toList_append]
  exact Path.rootOf_append (Path.head?_join_ne hnames)

/-- The steps to a file that is found are those to the start of the search and then those from there. -/
theorem stepsFromRoot_startOf_append (hdown : ".." ∉ names) (cwd path : String) :
    stepsFromRoot cwd (startOf path ++ join names) = stepsFromRoot cwd path ++ names := by
  have habsolute : isAbsolute (startOf path ++ join names) = isAbsolute path := by
    rw [← isAbsolute_startOf path, isAbsolute, isAbsolute, rootOf_startOf_append hnames path]
  unfold stepsFromRoot
  rw [habsolute, steps_startOf_append hnames path]
  split
  · rw [Path.settle_append, Path.settle_of_notMem hdown, List.reverse_reverse]
  · rw [← List.append_assoc, Path.settle_append, Path.settle_of_notMem hdown, List.reverse_reverse]

end

/-- The files that a search finds are shown with the same beginning, unless the project is somewhere
below its start. -/
theorem exists_shown_eq {disk : Disk} {path : String} {place : List String}
    (habove : ¬ disk.LeadsAboveHome path) (hplace : disk.place path = .ok place)
    (hsteps : ∀ name ∈ place, isStep name) :
    ∃ start, ∀ names, names ≠ [] → (∀ name ∈ names, isStep name) → ".." ∉ names →
      shown disk.home disk.cwd (startOf path ++ join names) = slashed (start ++ join names) := by
  have hsettled := Disk.stepsFromRoot_of_place hplace
  by_cases hinside : ∃ rest, place = steps disk.home ++ rest
  · obtain ⟨rest, rfl⟩ := hinside
    obtain ⟨start, hstart⟩ := Path.exists_join_append rest
    refine ⟨start, ?_⟩
    intro names hne hnames hdown
    have hnormalized : normalized (join (rest ++ names)) = join (rest ++ names) := by
      refine Path.normalized_join (List.append_ne_nil_of_right_ne_nil _ hne) ?_
      rw [List.forall_mem_append] at hsteps
      exact List.forall_mem_append.2 ⟨hsteps.2, hnames⟩
    unfold shown
    rw [stepsFromRoot_startOf_append hnames hdown, hsettled]
    dsimp only
    rw [List.append_assoc, Text.afterPrefix_append]
    dsimp only
    rw [hnormalized, hstart names hne]
  · obtain ⟨start, hstart⟩ := Path.exists_join_append place
    refine ⟨"/" ++ start, ?_⟩
    intro names hne hnames hdown
    have houtside : Text.afterPrefix (steps disk.home) (place ++ names) = none := by
      rw [Option.eq_none_iff_forall_ne_some]
      intro rest hrest
      rcases List.append_eq_append_iff.1 (Text.eq_append_of_afterPrefix hrest) with
        ⟨below, hhome, -⟩ | ⟨rest, hplace, -⟩
      · apply habove
        refine ⟨below, ?_, by rw [hsettled, hhome]⟩
        rintro rfl
        exact hinside ⟨[], by rw [hhome, List.append_nil, List.append_nil]⟩
      · exact hinside ⟨rest, hplace⟩
    unfold shown
    rw [stepsFromRoot_startOf_append hnames hdown, hsettled]
    dsimp only
    rw [houtside]
    dsimp only
    rw [hstart names hne, String.append_assoc]

end Discovery

end FlakeLint
