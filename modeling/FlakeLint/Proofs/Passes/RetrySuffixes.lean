-- SUMMARY: The two patterns for names that speak of retrying accept the same names, at the same place.
import FlakeLint.Proofs.Passes.RetryNames
import FlakeLint.Proofs.Text.Search
import FlakeLint.Problem.BrokenChain

/-!
# Two patterns for retry names

The pass that looks at waits and the pass that looks at chains each have a pattern for
names that speak of retrying. The second has one ending more, "success". An ending can
only lengthen a match: whether there is one, and where it starts, is decided by the
leftmost retry word alone. Hence both passes excuse the same names.
-/

namespace FlakeLint.Retry

variable {name : String} {function : Cursor}

-- ---------------------------------------------------------------------------
-- Which names are accepted
-- ---------------------------------------------------------------------------

theorem isRetryHelperName_eq (name : String) :
    Names.isRetryHelperName name = Names.isRetryName name :=
  (Text.occurs_map _ _).trans (Text.occurs_map _ _).symm

theorem isRetryHelperName_iff : Names.isRetryHelperName name = true ↔ SpeaksOfRetrying name := by
  rw [isRetryHelperName_eq]
  exact isRetryName_iff

/-- The name that stands for a missing one in reports does not speak of retrying either. -/
theorem isRetryHelperName_reportedName (function : Cursor) :
    Names.isRetryHelperName (BrokenChain.reportedName function) =
      Names.isRetryName function.functionName := by
  rw [isRetryHelperName_eq, BrokenChain.reportedName]
  split
  · next hempty =>
    rw [hempty]
    decide
  · rfl

theorem isBrokenHelper_eq_false (h : SpeaksOfRetrying function.functionName) :
    BrokenChain.isBrokenHelper function = false := by
  have hname : Names.isRetryHelperName (BrokenChain.reportedName function) = true := by
    rw [isRetryHelperName_reportedName]
    exact isRetryName_iff.2 h
  simp [BrokenChain.isBrokenHelper, hname]

theorem marks_of_speaksOfRetrying (h : SpeaksOfRetrying function.functionName)
    (hfunction : function.kind.isFunction = true) (object : String) :
    marks object function = true := by
  have hname := isRetryName_iff.2 h
  simp [marks, hname, hfunction]

-- ---------------------------------------------------------------------------
-- What is matched
-- ---------------------------------------------------------------------------

variable {cs : List Char} {start stop start' stop' : Nat}

theorem prefixFree_retryWords : Text.PrefixFree Names.retryWords := by
  decide

theorem areSmall_retryWords : Text.AreSmall Names.retryWords := by
  decide

/-- The leftmost retry word and the ending behind it. -/
theorem of_search_retryName (h : Text.search Names.afterRetryName cs = some (start, stop)) :
    ∃ middle, Text.StandsFirst Names.retryWords cs start middle ∧
      Text.EndsAt Names.retryEndings cs middle stop :=
  Text.of_search_words areSmall_retryWords prefixFree_retryWords (by decide) (by decide) h

theorem of_search_retryHelperName
    (h : Text.search Names.afterRetryHelperName cs = some (start, stop)) :
    ∃ middle, Text.StandsFirst Names.retryWords cs start middle ∧
      Text.EndsAt (Names.retryEndings ++ ["success"]) cs middle stop :=
  Text.of_search_words areSmall_retryWords prefixFree_retryWords (by decide) (by decide) h

/-- One match by each pattern, which begin together. Behind the retry word stands an ending that both
patterns know, or else the second pattern alone takes "success". -/
structure MatchTogether (cs : List Char) (start middle stop stop' : Nat) : Prop where
  word : Text.StandsFirst Names.retryWords cs start middle
  ending : Text.EndsAt Names.retryEndings cs middle stop
  further : Text.StandsAt Names.retryEndings cs middle stop ∧ stop' = stop ∨
    stop = middle ∧ Text.EndsAt ["success"] cs stop stop'

theorem matchTogether_of_search (h : Text.search Names.afterRetryName cs = some (start, stop))
    (h' : Text.search Names.afterRetryHelperName cs = some (start', stop')) :
    start' = start ∧ ∃ middle, MatchTogether cs start middle stop stop' := by
  obtain ⟨middle, hword, hending⟩ := of_search_retryName h
  obtain ⟨middle', hword', hending'⟩ := of_search_retryHelperName h'
  obtain ⟨rfl, rfl⟩ := hword.unique areSmall_retryWords prefixFree_retryWords hword'
  refine ⟨rfl, middle, hword, hending, ?_⟩
  have hfurther := (hending.append_iff (by decide) (by decide)).1 hending'
  cases hfurther with
  | inl hsame => exact .inl hsame
  | inr hmore =>
    obtain ⟨hnone, hsuccess⟩ := hmore
    cases hending with
    | inl hstands => exact absurd hstands (hnone stop)
    | inr hequal =>
      obtain ⟨rfl, -⟩ := hequal
      exact .inr ⟨rfl, hsuccess⟩

theorem exists_matchTogether (h : SpeaksOfRetrying name) :
    ∃ start middle stop stop',
      Text.search Names.afterRetryName name.toList = some (start, stop) ∧
      Text.search Names.afterRetryHelperName name.toList = some (start, stop') ∧
      MatchTogether name.toList start middle stop stop' := by
  have hfound : (Text.search Names.afterRetryName name.toList).isSome = true := by
    rw [Text.isSome_search]
    exact isRetryName_iff.2 h
  have hfound' : (Text.search Names.afterRetryHelperName name.toList).isSome = true := by
    rw [Text.isSome_search]
    exact isRetryHelperName_iff.2 h
  obtain ⟨⟨start, stop⟩, hsearch⟩ := Option.isSome_iff_exists.1 hfound
  obtain ⟨⟨start', stop'⟩, hsearch'⟩ := Option.isSome_iff_exists.1 hfound'
  obtain ⟨rfl, middle, htogether⟩ := matchTogether_of_search hsearch hsearch'
  exact ⟨_, middle, stop, stop', hsearch, hsearch', htogether⟩

theorem search_eq_none (h : ¬ SpeaksOfRetrying name) :
    Text.search Names.afterRetryName name.toList = none ∧
    Text.search Names.afterRetryHelperName name.toList = none := by
  constructor
  · rw [← Option.not_isSome_iff_eq_none, Text.isSome_search]
    exact fun hfound => h (isRetryName_iff.1 hfound)
  · rw [← Option.not_isSome_iff_eq_none, Text.isSome_search]
    exact fun hfound => h (isRetryHelperName_iff.1 hfound)

/-- Each pattern accepts the names that hold a retry word. The matches begin at the leftmost one, and
the second match is longer by "success" at most. So a function with such a name is excused by both
passes, and the name of any other function excuses it in neither. -/
theorem name_patterns_agree (name : String) :
    (Names.isRetryName name = true ↔ SpeaksOfRetrying name) ∧
    (Names.isRetryHelperName name = true ↔ SpeaksOfRetrying name) ∧
    (SpeaksOfRetrying name → ∃ start middle stop stop',
      Text.search Names.afterRetryName name.toList = some (start, stop) ∧
      Text.search Names.afterRetryHelperName name.toList = some (start, stop') ∧
      MatchTogether name.toList start middle stop stop') ∧
    (¬ SpeaksOfRetrying name →
      Text.search Names.afterRetryName name.toList = none ∧
      Text.search Names.afterRetryHelperName name.toList = none) ∧
    ∀ function : Cursor, function.functionName = name →
      Names.isRetryHelperName (BrokenChain.reportedName function) = Names.isRetryName name ∧
      (SpeaksOfRetrying name → BrokenChain.isBrokenHelper function = false ∧
        (function.kind.isFunction = true → ∀ object, marks object function = true)) := by
  refine ⟨isRetryName_iff, isRetryHelperName_iff, exists_matchTogether, search_eq_none, ?_⟩
  intro function hname
  subst hname
  refine ⟨isRetryHelperName_reportedName function, ?_⟩
  intro hspeaks
  exact ⟨isBrokenHelper_eq_false hspeaks, marks_of_speaksOfRetrying hspeaks⟩

example : Text.search Names.afterRetryName "loginCheckSuccess".toList = some (5, 10) := by
  decide

example : Text.search Names.afterRetryHelperName "loginCheckSuccess".toList = some (5, 17) := by
  decide

end FlakeLint.Retry
