-- SUMMARY: What the recognisers of words accept: pieces of the text that read like their words in any case.
import FlakeLint.Proofs.Text.Words
import Mathlib.Data.List.Forall2

/-!
# Patterns of words

A piece of text reads like a word if their letters agree one by one, whatever their
case. A text mentions a word if some piece of it reads like the word, and holds two
words in turn if, on one line, a piece that reads like the first stands before one
that reads like the second. These are the patterns that the recognisers accept.
-/

namespace FlakeLint.Text

-- ---------------------------------------------------------------------------
-- Words in any case
-- ---------------------------------------------------------------------------

/-- Letter by letter, the piece is the word in any case. -/
def ReadsLike (word piece : List Char) : Prop :=
  List.Forall₂ (fun letter c => sameLetter letter c = true) word piece

variable {word piece cs rest : List Char} {words start : List String}

/-- What stands before the rest of the text reads like the word. -/
theorem afterWord_eq_some_iff :
    afterWord word cs = some rest ↔ ∃ piece, cs = piece ++ rest ∧ ReadsLike word piece := by
  induction word generalizing cs with
  | nil =>
    rw [afterWord, Option.some_inj]
    constructor
    · rintro rfl
      exact ⟨[], rfl, .nil⟩
    · rintro ⟨piece, rfl, hpiece⟩
      cases hpiece
      rfl
  | cons letter word ih =>
    cases cs with
    | nil =>
      refine iff_of_false (by simp [afterWord]) ?_
      rintro ⟨piece, hnil, hpiece⟩
      cases hpiece
      cases hnil
    | cons c cs =>
      rw [afterWord]
      by_cases hletter : sameLetter letter c = true
      · rw [if_pos hletter, ih]
        constructor
        · rintro ⟨piece, rfl, hpiece⟩
          exact ⟨c :: piece, rfl, .cons hletter hpiece⟩
        · rintro ⟨piece, hsplit, hpiece⟩
          cases hpiece with
          | cons _ hpiece => exact ⟨_, (List.cons.inj hsplit).2, hpiece⟩
      · rw [if_neg hletter]
        refine iff_of_false (by simp) ?_
        rintro ⟨piece, hsplit, hpiece⟩
        cases hpiece with
        | cons hsame _ =>
          obtain ⟨rfl, -⟩ := List.cons.inj hsplit
          exact hletter hsame

theorem exists_of_afterAnyWord (h : afterAnyWord words cs = some rest) :
    ∃ word ∈ words, ∃ piece, cs = piece ++ rest ∧ ReadsLike word.toList piece := by
  obtain ⟨word, hword, hafter⟩ := List.exists_of_findSome?_eq_some h
  exact ⟨word, hword, afterWord_eq_some_iff.1 hafter⟩

theorem isSome_afterAnyWord {word : String} (hword : word ∈ words)
    (hpiece : ReadsLike word.toList piece) (rest : List Char) :
    (afterAnyWord words (piece ++ rest)).isSome = true := by
  have hafter : afterWord word.toList (piece ++ rest) = some rest :=
    afterWord_eq_some_iff.2 ⟨piece, rfl, hpiece⟩
  unfold afterAnyWord
  rw [List.findSome?_isSome_iff]
  exact ⟨word, hword, by rw [hafter]; rfl⟩

-- ---------------------------------------------------------------------------
-- Somewhere in a text
-- ---------------------------------------------------------------------------

theorem occurs_iff {recognise : List Char → Option (List Char)} :
    occurs recognise cs = true ↔
      ∃ before rest, cs = before ++ rest ∧ (recognise rest).isSome = true := by
  constructor
  · have hfrom (offset : Nat) : (searchFrom recognise offset cs).isSome = true →
        ∃ before rest, cs = before ++ rest ∧ (recognise rest).isSome = true := by
      induction cs generalizing offset with
      | nil =>
        intro h
        rw [searchFrom, Option.isSome_map] at h
        exact ⟨[], [], rfl, h⟩
      | cons c cs ih =>
        intro h
        rw [searchFrom] at h
        split at h
        · next hhere => exact ⟨[], c :: cs, rfl, by rw [hhere]; rfl⟩
        · obtain ⟨before, rest, rfl, hrest⟩ := ih (offset + 1) h
          exact ⟨c :: before, rest, rfl, hrest⟩
    exact hfrom 0
  · rintro ⟨before, rest, rfl, hrest⟩
    exact occurs_of_suffix (List.suffix_append _ _) hrest

/-- What a recogniser does with the text behind a match does not matter for where it accepts. -/
theorem occurs_map (recognise : List Char → Option (List Char)) (behind : List Char → List Char) :
    occurs (fun cs => (recognise cs).map behind) cs = occurs recognise cs := by
  rw [Bool.eq_iff_iff, occurs_iff, occurs_iff]
  simp only [Option.isSome_map]

theorem mentions_iff :
    mentions words cs = true ↔
      ∃ word ∈ words, ∃ piece, piece <:+: cs ∧ ReadsLike word.toList piece := by
  unfold mentions
  rw [occurs_iff]
  constructor
  · rintro ⟨before, rest, rfl, hrest⟩
    obtain ⟨behind, hbehind⟩ := Option.isSome_iff_exists.1 hrest
    obtain ⟨word, hword, piece, rfl, hpiece⟩ := exists_of_afterAnyWord hbehind
    exact ⟨word, hword, piece, ⟨before, behind, List.append_assoc _ _ _⟩, hpiece⟩
  · rintro ⟨word, hword, piece, ⟨before, behind, rfl⟩, hpiece⟩
    exact ⟨before, piece ++ behind, List.append_assoc _ _ _,
      isSome_afterAnyWord hword hpiece behind⟩

-- ---------------------------------------------------------------------------
-- Words of small letters
-- ---------------------------------------------------------------------------

/-- The small letter that a character counts as when case is ignored. -/
def folded (c : Char) : Char :=
  if c = '\u0130' ∨ c = '\u0131' then 'i'
  else if c = '\u017F' then 's'
  else if c = '\u212A' then 'k'
  else c.toLower

/-- A character counts as one small letter only. -/
theorem sameLetter_iff_folded {letter c : Char} (hletter : letter.isLower = true) :
    sameLetter letter c = true ↔ folded c = letter := by
  -- None of the four special letters is a small ASCII letter itself.
  have hplain (special : Char) (hspecial : special.isLower = false) : letter ≠ special := by
    rintro rfl
    rw [hspecial] at hletter
    cases hletter
  simp only [sameLetter, Bool.or_eq_true, Bool.and_eq_true, beq_iff_eq, folded]
  by_cases hi : c = '\u0130' ∨ c = '\u0131'
  · rcases hi with rfl | rfl
    · simp [hplain '\u0130' (by decide), eq_comm]
    · simp [hplain '\u0131' (by decide), eq_comm]
  · by_cases hs : c = '\u017F'
    · subst hs
      simp [hplain '\u017F' (by decide), eq_comm]
    · by_cases hk : c = '\u212A'
      · subst hk
        simp [hplain '\u212A' (by decide), eq_comm]
      · simp [hi, hs, hk]

theorem readsLike_iff_map_folded (hword : ∀ letter ∈ word, letter.isLower = true) :
    ReadsLike word piece ↔ piece.map folded = word := by
  unfold ReadsLike
  induction word generalizing piece with
  | nil => rw [List.forall₂_nil_left_iff, List.map_eq_nil_iff]
  | cons letter word ih =>
    rw [List.forall_mem_cons] at hword
    rw [List.forall₂_cons_left_iff, List.map_eq_cons_iff]
    simp only [sameLetter_iff_folded hword.1, ih hword.2]
    constructor
    · rintro ⟨c, cs, hletter, hcs, rfl⟩
      exact ⟨c, cs, rfl, hletter, hcs⟩
    · rintro ⟨c, cs, rfl, hletter, hcs⟩
      exact ⟨c, cs, hletter, hcs, rfl⟩

theorem newline_notMem_of_readsLike (hword : ∀ letter ∈ word, letter.isLower = true)
    (h : ReadsLike word piece) : '\n' ∉ piece := by
  intro hmem
  rw [readsLike_iff_map_folded hword] at h
  have hsmall := hword (folded '\n') (h ▸ List.mem_map_of_mem hmem)
  revert hsmall
  decide

/-- The words consist of small ASCII letters. -/
def AreSmall (words : List String) : Prop :=
  ∀ word ∈ words, ∀ c ∈ word.toList, c.isLower = true

/-- No word is empty, and no two of them begin with the same letter. -/
def BeginApart (words : List String) : Prop :=
  ∀ word ∈ words, word.toList ≠ [] ∧
    ∀ other ∈ words, other.toList.head? = word.toList.head? → other = word

instance (words : List String) : Decidable (AreSmall words) :=
  decidable_of_iff (words.all fun word => word.toList.all Char.isLower)
    (by simp only [AreSmall, List.all_eq_true])

instance (words : List String) : Decidable (BeginApart words) :=
  inferInstanceAs (Decidable (∀ word ∈ words, word.toList ≠ [] ∧
    ∀ other ∈ words, other.toList.head? = word.toList.head? → other = word))

/-- No word is the beginning of another one. -/
def PrefixFree (words : List String) : Prop :=
  ∀ word ∈ words, ∀ other ∈ words, other.toList <+: word.toList → other = word

instance (words : List String) : Decidable (PrefixFree words) :=
  inferInstanceAs (Decidable (∀ word ∈ words, ∀ other ∈ words,
    other.toList <+: word.toList → other = word))

theorem BeginApart.prefixFree (hapart : BeginApart words) : PrefixFree words := by
  intro word hword other hother hprefix
  refine (hapart word hword).2 other hother ?_
  obtain ⟨behind, hbehind⟩ := hprefix
  rw [← hbehind, List.head?_append_of_ne_nil _ (hapart other hother).1]

/-- Of words that are prefix-free, a text starts with one at most. -/
theorem afterAnyWord_eq_some_iff_of_prefixFree (hsmall : AreSmall words) (hfree : PrefixFree words) :
    afterAnyWord words cs = some rest ↔
      ∃ word ∈ words, ∃ piece, cs = piece ++ rest ∧ ReadsLike word.toList piece := by
  refine ⟨exists_of_afterAnyWord, ?_⟩
  rintro ⟨word, hword, piece, rfl, hpiece⟩
  obtain ⟨found, hfound⟩ := Option.isSome_iff_exists.1 (isSome_afterAnyWord hword hpiece rest)
  obtain ⟨other, hother, piece', hsplit, hpiece'⟩ := exists_of_afterAnyWord hfound
  -- Of two pieces at the start of one text, the one is the beginning of the other.
  have hle : piece <+: piece' ∨ piece' <+: piece :=
    List.prefix_or_prefix_of_prefix (List.prefix_append _ _) ⟨found, hsplit.symm⟩
  have hsame : other = word := by
    have hread := (readsLike_iff_map_folded (hsmall word hword)).1 hpiece
    have hread' := (readsLike_iff_map_folded (hsmall other hother)).1 hpiece'
    cases hle with
    | inl hle => exact (hfree other hother word hword (hread ▸ hread' ▸ hle.map folded)).symm
    | inr hle => exact hfree word hword other hother (hread ▸ hread' ▸ hle.map folded)
  subst hsame
  have hlength : piece.length = piece'.length := hpiece.length_eq.symm.trans hpiece'.length_eq
  rw [hfound, (List.append_inj hsplit hlength).2]

/-- Of words that begin apart, a text starts with one at most. -/
theorem afterAnyWord_eq_some_iff (hsmall : AreSmall words) (hapart : BeginApart words) :
    afterAnyWord words cs = some rest ↔
      ∃ word ∈ words, ∃ piece, cs = piece ++ rest ∧ ReadsLike word.toList piece :=
  afterAnyWord_eq_some_iff_of_prefixFree hsmall hapart.prefixFree

-- ---------------------------------------------------------------------------
-- One word after another
-- ---------------------------------------------------------------------------

theorem restOfLine_append (h : '\n' ∉ cs) (rest : List Char) :
    restOfLine (cs ++ rest) = cs ++ restOfLine rest := by
  refine List.takeWhile_append_of_pos fun c hc => ?_
  exact bne_iff_ne.2 fun hnewline => h (hnewline ▸ hc)

theorem newline_notMem_restOfLine (cs : List Char) : '\n' ∉ restOfLine cs := by
  intro hmem
  have hkept := List.all_eq_true.1 List.all_takeWhile _ hmem
  revert hkept
  decide

/-- A word stands on the first line if no line ends before it. -/
theorem mentions_restOfLine_iff (hsmall : AreSmall words) :
    mentions words (restOfLine cs) = true ↔
      ∃ word ∈ words, ∃ middle piece behind, cs = middle ++ (piece ++ behind) ∧
        ReadsLike word.toList piece ∧ '\n' ∉ middle := by
  rw [mentions_iff]
  constructor
  · rintro ⟨word, hword, piece, ⟨middle, behind, hline⟩, hpiece⟩
    obtain ⟨below, hbelow⟩ : restOfLine cs <+: cs := List.takeWhile_prefix _
    refine ⟨word, hword, middle, piece, behind ++ below, ?_, hpiece, fun hmem => ?_⟩
    · rw [← hbelow, ← hline]
      simp only [List.append_assoc]
    · refine newline_notMem_restOfLine cs ?_
      rw [← hline]
      exact List.mem_append_left _ (List.mem_append_left _ hmem)
  · rintro ⟨word, hword, middle, piece, behind, rfl, hpiece, hmiddle⟩
    have hnewline := newline_notMem_of_readsLike (hsmall word hword) hpiece
    refine ⟨word, hword, piece, ⟨middle, restOfLine behind, ?_⟩, hpiece⟩
    rw [restOfLine_append hmiddle, restOfLine_append hnewline, List.append_assoc]

/-- On one line of the text, a piece that reads like one of the first words stands before a piece that
reads like one of the others. -/
def HoldsInTurn (start words : List String) (cs : List Char) : Prop :=
  ∃ first ∈ start, ∃ last ∈ words, ∃ before p middle q behind,
    cs = before ++ (p ++ (middle ++ (q ++ behind))) ∧
    ReadsLike first.toList p ∧ ReadsLike last.toList q ∧ '\n' ∉ middle

theorem isSome_afterWordThen_iff :
    (afterWordThen start words cs).isSome = true ↔
      ∃ rest, afterAnyWord start cs = some rest ∧ mentions words (restOfLine rest) = true := by
  unfold afterWordThen
  rw [Option.isSome_bind, Option.any_eq_true]
  simp only [Option.isSome_ite]

/-- The recogniser of two words in turn accepts what its name says. -/
theorem occurs_afterWordThen_iff (hstart : AreSmall start) (hapart : BeginApart start)
    (hwords : AreSmall words) :
    occurs (afterWordThen start words) cs = true ↔ HoldsInTurn start words cs := by
  rw [occurs_iff]
  constructor
  · rintro ⟨before, ends, rfl, h⟩
    obtain ⟨rest, hafter, hline⟩ := isSome_afterWordThen_iff.1 h
    obtain ⟨first, hfirst, p, rfl, hp⟩ := exists_of_afterAnyWord hafter
    obtain ⟨last, hlast, middle, q, behind, rfl, hq, hmiddle⟩ :=
      (mentions_restOfLine_iff hwords).1 hline
    exact ⟨first, hfirst, last, hlast, before, p, middle, q, behind, rfl, hp, hq, hmiddle⟩
  · rintro ⟨first, hfirst, last, hlast, before, p, middle, q, behind, rfl, hp, hq, hmiddle⟩
    have hafter := (afterAnyWord_eq_some_iff hstart hapart).2
      ⟨first, hfirst, p, (rfl : p ++ (middle ++ (q ++ behind)) = _), hp⟩
    have hline := (mentions_restOfLine_iff hwords).2
      ⟨last, hlast, middle, q, behind, rfl, hq, hmiddle⟩
    exact ⟨before, _, rfl, isSome_afterWordThen_iff.2 ⟨_, hafter, hline⟩⟩

end FlakeLint.Text
