-- SUMMARY: Where words stand in a text, and what more text behind it adds to that.
import FlakeLint.Text.Words
import Mathlib.Data.List.Infix

/-!
# Words in texts

A text contains a word if the word is a piece of it. Text that is put behind another
adds a word only if the word stands in it, or begins in the one and ends in the
other.
-/

namespace FlakeLint.Text

/-! ## Exact words -/

section

variable {α : Type} [BEq α] [LawfulBEq α] {word cs ds : List α}

theorem isSome_afterPrefix_iff : (afterPrefix word cs).isSome ↔ word <+: cs := by
  induction word generalizing cs with
  | nil => simp [afterPrefix]
  | cons w word ih =>
    cases cs with
    | nil => simp [afterPrefix]
    | cons c cs =>
      rw [afterPrefix, List.cons_prefix_cons]
      by_cases h : w = c
      · rw [if_pos (beq_iff_eq.2 h), ih]
        simp [h]
      · rw [if_neg (by simpa using h)]
        simp [h]

theorem eq_append_of_afterPrefix {rest : List α} (h : afterPrefix word cs = some rest) :
    cs = word ++ rest := by
  induction word generalizing cs with
  | nil => simpa [afterPrefix] using h
  | cons w word ih =>
    cases cs with
    | nil => simp [afterPrefix] at h
    | cons c cs =>
      unfold afterPrefix at h
      split at h
      · next hw => rw [ih h, beq_iff_eq.1 hw, List.cons_append]
      · cases h

theorem afterPrefix_append (word rest : List α) : afterPrefix word (word ++ rest) = some rest := by
  obtain ⟨found, hfound⟩ := Option.isSome_iff_exists.1
    (isSome_afterPrefix_iff.2 (List.prefix_append word rest))
  rw [hfound, List.append_cancel_left (eq_append_of_afterPrefix hfound)]

theorem containsChars_iff : containsChars word cs ↔ word <:+: cs := by
  induction cs with
  | nil => simp [containsChars]
  | cons c cs ih =>
    rw [containsChars, Bool.or_eq_true, isSome_afterPrefix_iff, ih, List.infix_cons_iff]

/-- Does the word stand in a text, or an end of the word at the start of it? -/
def meets (word ds : List α) : Bool :=
  containsChars word ds || word.tails.any fun tail => !tail.isEmpty && tail.isPrefixOf ds

/-- Text that does not meet a word does not bring it into the text before. -/
theorem containsChars_append (h : meets word ds = false) :
    containsChars word (cs ++ ds) = containsChars word cs := by
  unfold meets at h
  rw [Bool.or_eq_false_iff, ← Bool.not_eq_true, containsChars_iff, List.any_eq_false] at h
  rw [Bool.eq_iff_iff, containsChars_iff, containsChars_iff, List.infix_append_iff]
  constructor
  · rintro (hbefore | hbehind | ⟨head, tail, rfl, hhead, htail⟩)
    · exact hbefore
    · exact (h.1 hbehind).elim
    · cases tail with
      | nil => simpa using hhead.isInfix
      | cons c tail =>
        have hmeets := h.2 (c :: tail) ((List.mem_tails _ _).2 (List.suffix_append head _))
        simp [htail] at hmeets
  · exact .inl

end

theorem startsWith_iff {text word : String} :
    startsWith text word ↔ word.toList <+: text.toList :=
  isSome_afterPrefix_iff

theorem startsWith_append (word rest : String) : startsWith (word ++ rest) word := by
  rw [startsWith_iff, String.toList_append]
  exact List.prefix_append _ _

theorem startsWith_append_of {text word : String} (h : startsWith text word) (rest : String) :
    startsWith (text ++ rest) word := by
  rw [startsWith_iff] at h ⊢
  rw [String.toList_append]
  exact h.trans (List.prefix_append _ _)

/-- A text starts with one of two words only, unless one of them starts with the other. -/
theorem startsWith_eq_false {text first word : String} (h : startsWith text first)
    (hfirst : startsWith first word = false) (hword : startsWith word first = false) :
    startsWith text word = false := by
  rw [← Bool.not_eq_true, startsWith_iff] at hfirst hword ⊢
  intro htext
  rcases List.prefix_or_prefix_of_prefix htext (startsWith_iff.1 h) with hle | hle
  · exact hfirst hle
  · exact hword hle

/-! ## Ends -/

theorem suffix_append_of {cs : List Char} {text : String} (h : cs <:+ text.toList)
    (first : String) : cs <:+ (first ++ text).toList := by
  rw [String.toList_append]
  exact h.trans (List.suffix_append _ _)

/-- Joined texts end in the last one. -/
theorem suffix_intercalate {sep : String} (texts : List String) (last : String) :
    last.toList <:+ (String.intercalate sep (texts ++ [last])).toList := by
  cases texts with
  | nil =>
    rw [List.nil_append, String.intercalate_singleton]
  | cons first texts =>
    rw [String.intercalate_append_of_ne_nil (List.cons_ne_nil _ _) (List.cons_ne_nil _ _),
      String.intercalate_singleton]
    exact suffix_append_of List.suffix_rfl _

/-! ## Small letters -/

theorem toList_lower_append (s t : String) :
    (lower (s ++ t)).toList = (lower s).toList ++ (lower t).toList := by
  simp [lower, lowerChars]

/-! ## Recognisers -/

/-- What is recognised at the start of an end of the text occurs in the text. -/
theorem occurs_of_suffix {recognise : List Char → Option (List Char)} {cs ds : List Char}
    (h : ds <:+ cs) (hds : (recognise ds).isSome) : occurs recognise cs := by
  have hfrom (offset : Nat) : (searchFrom recognise offset cs).isSome := by
    induction cs generalizing offset with
    | nil =>
      rw [List.suffix_nil] at h
      rw [searchFrom, Option.isSome_map, ← h]
      exact hds
    | cons c cs ih =>
      rw [searchFrom]
      split
      · rfl
      · next hnone =>
        rcases List.suffix_cons_iff.1 h with rfl | h
        · rw [hnone] at hds
          cases hds
        · exact ih h (offset + 1)
  exact hfrom 0

end FlakeLint.Text
