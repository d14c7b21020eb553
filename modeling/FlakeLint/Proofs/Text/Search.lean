-- SUMMARY: Where a search finds a word: the leftmost place, and where the ending behind it stops.
import FlakeLint.Proofs.Text.Patterns

/-!
# Searching for words

A word stands at a place of a text if the piece between two offsets reads like it. A
search for prefix-free words with optional endings stops at the leftmost such place.
The match reaches to the end of the word, or to the end of an ending that follows the
word directly.
-/

namespace FlakeLint.Text

variable {words endings more : List String} {cs rest : List Char}
  {recognise : List Char → Option (List Char)} {offset start middle stop other : Nat}

-- ---------------------------------------------------------------------------
-- Words between two offsets
-- ---------------------------------------------------------------------------

/-- From the one offset of the text to the other, a piece reads like one of the words. -/
def StandsAt (words : List String) (cs : List Char) (start stop : Nat) : Prop :=
  ∃ before piece behind, cs = before ++ (piece ++ behind) ∧ before.length = start ∧
    (before ++ piece).length = stop ∧ ∃ word ∈ words, ReadsLike word.toList piece

/-- One of the words stands there, and none of them before that place. -/
def StandsFirst (words : List String) (cs : List Char) (start stop : Nat) : Prop :=
  StandsAt words cs start stop ∧ ∀ earlier other, StandsAt words cs earlier other → start ≤ earlier

/-- One of the endings stands from the one offset to the other; the offsets are equal where none does. -/
def EndsAt (endings : List String) (cs : List Char) (middle stop : Nat) : Prop :=
  StandsAt endings cs middle stop ∨ stop = middle ∧ ∀ other, ¬ StandsAt endings cs middle other

theorem standsAt_append :
    StandsAt (words ++ more) cs start stop ↔
      StandsAt words cs start stop ∨ StandsAt more cs start stop := by
  unfold StandsAt
  simp only [List.mem_append, or_and_right, exists_or, and_or_left]

/-- What stands in a text is what the recogniser of the words accepts at the place. -/
theorem standsAt_iff_afterAnyWord (hsmall : AreSmall words) (hfree : PrefixFree words) :
    StandsAt words cs start stop ↔
      start ≤ cs.length ∧ ∃ rest, afterAnyWord words (cs.drop start) = some rest ∧
        stop + rest.length = cs.length := by
  constructor
  · intro h
    obtain ⟨before, piece, behind, rfl, rfl, rfl, word, hword, hpiece⟩ := h
    rw [List.drop_left]
    refine ⟨(List.prefix_append _ _).length_le, behind, ?_, ?_⟩
    · exact (afterAnyWord_eq_some_iff_of_prefixFree hsmall hfree).2 ⟨word, hword, piece, rfl, hpiece⟩
    · rw [← List.length_append, List.append_assoc]
  · intro h
    obtain ⟨hstart, rest, hrest, hstop⟩ := h
    obtain ⟨word, hword, piece, hdrop, hpiece⟩ := exists_of_afterAnyWord hrest
    have hsplit : cs = cs.take start ++ (piece ++ rest) := by
      rw [← hdrop, List.take_append_drop]
    have hread : ∃ word ∈ words, ReadsLike word.toList piece := ⟨word, hword, hpiece⟩
    refine ⟨cs.take start, piece, rest, hsplit, List.length_take_of_le hstart, ?_, hread⟩
    have hlength := congrArg List.length hsplit
    rw [← List.append_assoc, List.length_append] at hlength
    omega

/-- At one place there is one word at most. -/
theorem StandsAt.stop_unique (hsmall : AreSmall words) (hfree : PrefixFree words)
    (h : StandsAt words cs start stop) (hother : StandsAt words cs start other) : stop = other := by
  obtain ⟨-, rest, hrest, hstop⟩ := (standsAt_iff_afterAnyWord hsmall hfree).1 h
  obtain ⟨-, rest', hrest', hstop'⟩ := (standsAt_iff_afterAnyWord hsmall hfree).1 hother
  rw [hrest, Option.some_inj] at hrest'
  subst hrest'
  exact Nat.add_right_cancel (hstop.trans hstop'.symm)

/-- There is one first place, and one word at it. -/
theorem StandsFirst.unique (hsmall : AreSmall words) (hfree : PrefixFree words)
    (h : StandsFirst words cs start stop) {start' stop' : Nat}
    (h' : StandsFirst words cs start' stop') : start = start' ∧ stop = stop' := by
  have hstart : start = start' := Nat.le_antisymm (h.2 _ _ h'.1) (h'.2 _ _ h.1)
  subst hstart
  exact ⟨rfl, h.1.stop_unique hsmall hfree h'.1⟩

/-- More endings let the match reach further only where none of the others stands. -/
theorem EndsAt.append_iff (hsmall : AreSmall (endings ++ more)) (hfree : PrefixFree (endings ++ more))
    {stop' : Nat} (h : EndsAt endings cs middle stop) :
    EndsAt (endings ++ more) cs middle stop' ↔
      StandsAt endings cs middle stop ∧ stop' = stop ∨
      (∀ other, ¬ StandsAt endings cs middle other) ∧ EndsAt more cs middle stop' := by
  cases h with
  | inl hending =>
    have hany : StandsAt (endings ++ more) cs middle stop := standsAt_append.2 (.inl hending)
    constructor
    · intro h
      cases h with
      | inl h => exact .inl ⟨hending, h.stop_unique hsmall hfree hany⟩
      | inr h => exact absurd hany (h.2 stop)
    · intro h
      cases h with
      | inl h => exact .inl (h.2 ▸ hany)
      | inr h => exact absurd hending (h.1 stop)
  | inr hnone =>
    have hmore (other : Nat) :
        StandsAt (endings ++ more) cs middle other ↔ StandsAt more cs middle other := by
      rw [standsAt_append, or_iff_right (hnone.2 other)]
    unfold EndsAt
    simp only [hmore, hnone.2, not_false_eq_true, implies_true, true_and, false_and, false_or]

-- ---------------------------------------------------------------------------
-- The leftmost match
-- ---------------------------------------------------------------------------

theorem of_searchFrom (h : searchFrom recognise offset cs = some (start, rest)) :
    ∃ skipped, start = offset + skipped ∧ skipped ≤ cs.length ∧
      recognise (cs.drop skipped) = some rest ∧ ∀ i < skipped, recognise (cs.drop i) = none := by
  induction cs generalizing offset with
  | nil =>
    obtain ⟨behind, hbehind, hfound⟩ := Option.map_eq_some_iff.1 h
    cases hfound
    exact ⟨0, rfl, Nat.le_refl 0, hbehind, fun i hi => absurd hi (Nat.not_lt_zero i)⟩
  | cons c cs ih =>
    rw [searchFrom] at h
    split at h
    · next hhere =>
      cases h
      exact ⟨0, rfl, Nat.zero_le _, hhere, fun i hi => absurd hi (Nat.not_lt_zero i)⟩
    · next hhere =>
      obtain ⟨skipped, rfl, hle, hrest, hskipped⟩ := ih h
      refine ⟨skipped + 1, by omega, Nat.succ_le_succ hle, hrest, ?_⟩
      intro i hi
      cases i with
      | zero => exact hhere
      | succ i => exact hskipped i (Nat.lt_of_succ_lt_succ hi)

theorem isSome_search (recognise : List Char → Option (List Char)) (cs : List Char) :
    (search recognise cs).isSome = occurs recognise cs := by
  unfold search occurs
  exact Option.isSome_map

/-- What follows a word is an end of the text. -/
theorem suffix_of_afterAnyWord (h : afterAnyWord words cs = some rest) : rest <:+ cs := by
  obtain ⟨-, -, piece, rfl, -⟩ := exists_of_afterAnyWord h
  exact List.suffix_append _ _

/-- An optional ending stops where the text behind it begins. -/
theorem endsAt_afterOptional (hsmall : AreSmall endings) (hfree : PrefixFree endings)
    (h : rest <:+ cs) :
    EndsAt endings cs (cs.length - rest.length)
      (cs.length - (afterOptional endings rest).length) := by
  have hdrop : cs.drop (cs.length - rest.length) = rest := (List.suffix_iff_eq_drop.1 h).symm
  unfold afterOptional
  cases hafter : afterAnyWord endings rest with
  | none =>
    refine .inr ⟨rfl, ?_⟩
    intro other hother
    obtain ⟨-, found, hfound, -⟩ := (standsAt_iff_afterAnyWord hsmall hfree).1 hother
    rw [hdrop, hafter] at hfound
    cases hfound
  | some found =>
    have hfound : found <:+ cs := (suffix_of_afterAnyWord hafter).trans h
    refine .inl ((standsAt_iff_afterAnyWord hsmall hfree).2 ⟨Nat.sub_le _ _, found, ?_, ?_⟩)
    · rw [hdrop, hafter]
    · exact Nat.sub_add_cancel hfound.length_le

/-- A search for words with optional endings finds the leftmost word and the ending behind it. -/
theorem of_search_words (hwords : AreSmall words) (hfree : PrefixFree words)
    (hsmall : AreSmall endings) (hends : PrefixFree endings)
    (h : search (fun cs => (afterAnyWord words cs).map (afterOptional endings)) cs =
      some (start, stop)) :
    ∃ middle, StandsFirst words cs start middle ∧ EndsAt endings cs middle stop := by
  obtain ⟨⟨_, rest⟩, hfound, hmatch⟩ := Option.map_eq_some_iff.1 h
  cases hmatch
  obtain ⟨skipped, hskip, hle, hrest, hskipped⟩ := of_searchFrom hfound
  rw [Nat.zero_add] at hskip
  subst hskip
  obtain ⟨behind, hbehind, rfl⟩ := Option.map_eq_some_iff.1 hrest
  have hsuffix : behind <:+ cs := (suffix_of_afterAnyWord hbehind).trans (List.drop_suffix _ _)
  refine ⟨cs.length - behind.length, ⟨?_, ?_⟩, endsAt_afterOptional hsmall hends hsuffix⟩
  · have hlength := Nat.sub_add_cancel hsuffix.length_le
    exact (standsAt_iff_afterAnyWord hwords hfree).2 ⟨hle, behind, hbehind, hlength⟩
  · intro earlier other hearlier
    obtain ⟨-, found, hfound, -⟩ := (standsAt_iff_afterAnyWord hwords hfree).1 hearlier
    by_contra hlt
    have hnone := hskipped earlier (Nat.lt_of_not_le hlt)
    rw [hfound] at hnone
    cases hnone

end FlakeLint.Text
