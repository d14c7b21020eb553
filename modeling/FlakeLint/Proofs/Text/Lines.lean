-- SUMMARY: Cutting text into lines, before and after it is encoded.
import FlakeLint.Proofs.Text.Utf8
import FlakeLint.Text.Blank

/-!
# Lines

A separator cuts a list wherever it stands, so the pieces of two lists with a
separator between them are the pieces of both, and pieces that are joined by a
separator are cut apart again. A newline is a byte of its own in encoded text, so
the lines of the encoded text are the encoded lines.
-/

namespace FlakeLint

namespace Text

variable {α : Type} [BEq α]

theorem exists_splitOn_eq_cons (sep : α) (xs : List α) :
    ∃ first rest, splitOn sep xs = first :: rest :=
  List.exists_cons_of_ne_nil (splitOn_ne_nil sep xs)

variable [LawfulBEq α] {sep : α}

theorem splitOn_cons_self (xs : List α) : splitOn sep (sep :: xs) = [] :: splitOn sep xs := by
  simp [splitOn]

theorem splitOn_cons_of_ne {x : α} (h : x ≠ sep) {xs first : List α} {rest : List (List α)}
    (hxs : splitOn sep xs = first :: rest) : splitOn sep (x :: xs) = (x :: first) :: rest := by
  unfold splitOn at hxs ⊢
  rw [List.foldr_cons, hxs, if_neg (by simpa using h)]

/-- What holds no separator goes to the first piece. -/
theorem splitOn_append_of_forall_ne {xs : List α} (h : ∀ x ∈ xs, x ≠ sep) {ys first : List α}
    {rest : List (List α)} (hys : splitOn sep ys = first :: rest) :
    splitOn sep (xs ++ ys) = (xs ++ first) :: rest := by
  induction xs with
  | nil => exact hys
  | cons x xs ih =>
    rw [List.forall_mem_cons] at h
    exact splitOn_cons_of_ne h.1 (ih h.2)

/-- The pieces around a separator are those before it and those behind it. -/
theorem splitOn_append_cons (xs ys : List α) :
    splitOn sep (xs ++ sep :: ys) = splitOn sep xs ++ splitOn sep ys := by
  induction xs with
  | nil => exact splitOn_cons_self ys
  | cons x xs ih =>
    by_cases hx : x = sep
    · subst hx
      rw [List.cons_append, splitOn_cons_self, splitOn_cons_self, ih, List.cons_append]
    · obtain ⟨first, rest, hxs⟩ := exists_splitOn_eq_cons sep xs
      rw [hxs, List.cons_append] at ih
      rw [List.cons_append, splitOn_cons_of_ne hx ih, splitOn_cons_of_ne hx hxs, List.cons_append]

theorem splitOn_of_forall_ne {xs : List α} (h : ∀ x ∈ xs, x ≠ sep) : splitOn sep xs = [xs] := by
  have hempty : splitOn sep ([] : List α) = [] :: [] := rfl
  have hxs := splitOn_append_of_forall_ne h hempty
  rwa [List.append_nil] at hxs

theorem ne_of_mem_splitOn {xs piece : List α} (h : piece ∈ splitOn sep xs) :
    ∀ x ∈ piece, x ≠ sep := by
  induction xs generalizing piece with
  | nil =>
    rw [List.mem_singleton.1 h]
    simp
  | cons x xs ih =>
    by_cases hx : x = sep
    · subst hx
      rw [splitOn_cons_self, List.mem_cons] at h
      rcases h with rfl | h
      · simp
      · exact ih h
    · obtain ⟨first, rest, hxs⟩ := exists_splitOn_eq_cons sep xs
      rw [splitOn_cons_of_ne hx hxs, List.mem_cons] at h
      rw [hxs] at ih
      rcases h with rfl | h
      · exact List.forall_mem_cons.2 ⟨hx, ih List.mem_cons_self⟩
      · exact ih (List.mem_cons_of_mem first h)

/-- Pieces that hold no separator are cut apart where they were joined. -/
theorem splitOn_intercalate {pieces : List (List α)} (hne : pieces ≠ [])
    (h : ∀ piece ∈ pieces, ∀ x ∈ piece, x ≠ sep) :
    splitOn sep ([sep].intercalate pieces) = pieces := by
  induction pieces with
  | nil => exact (hne rfl).elim
  | cons piece pieces ih =>
    rw [List.forall_mem_cons] at h
    cases pieces with
    | nil => simpa using splitOn_of_forall_ne h.1
    | cons next rest =>
      rw [List.intercalate_cons_cons, List.append_assoc, List.singleton_append,
        splitOn_append_cons, splitOn_of_forall_ne h.1, ih (List.cons_ne_nil _ _) h.2,
        List.singleton_append]

/-- The pieces joined by the separator are the list that was cut. -/
theorem intercalate_splitOn (xs : List α) : [sep].intercalate (splitOn sep xs) = xs := by
  induction xs with
  | nil => rfl
  | cons x xs ih =>
    obtain ⟨first, rest, hxs⟩ := exists_splitOn_eq_cons sep xs
    rw [hxs] at ih
    by_cases hx : x = sep
    · subst hx
      rw [splitOn_cons_self, hxs, List.intercalate_cons_cons, ih, List.nil_append,
        List.singleton_append]
    · rw [splitOn_cons_of_ne hx hxs]
      cases rest with
      | nil => simpa using ih
      | cons next rest =>
        rw [List.intercalate_cons_cons] at ih ⊢
        simpa using ih

omit [BEq α] [LawfulBEq α] in
theorem intercalate_append {first second : List (List α)} (hfirst : first ≠ [])
    (hsecond : second ≠ []) :
    [sep].intercalate (first ++ second) =
      [sep].intercalate first ++ sep :: [sep].intercalate second := by
  induction first with
  | nil => exact absurd rfl hfirst
  | cons piece first ih =>
    cases first with
    | nil => simp [List.intercalate_cons_of_ne_nil hsecond]
    | cons next first =>
      have hrest := ih (List.cons_ne_nil next first)
      simp only [List.cons_append, List.intercalate_cons_cons] at hrest ⊢
      simp [hrest]

/-- What comes before one of the separators between pieces is cut into the first of the pieces. -/
theorem concat_prefix_intercalate_iff {pieces : List (List α)}
    (h : ∀ piece ∈ pieces, ∀ x ∈ piece, x ≠ sep) {xs : List α} :
    xs ++ [sep] <+: [sep].intercalate pieces ↔
      ∃ rest, rest ≠ [] ∧ splitOn sep xs ++ rest = pieces := by
  constructor
  · rintro ⟨ys, hys⟩
    rw [List.append_assoc, List.singleton_append] at hys
    have hne : pieces ≠ [] := by
      rintro rfl
      simp at hys
    refine ⟨splitOn sep ys, splitOn_ne_nil sep ys, ?_⟩
    rw [← splitOn_append_cons, hys, splitOn_intercalate hne h]
  · rintro ⟨rest, hrest, rfl⟩
    rw [intercalate_append (splitOn_ne_nil sep xs) hrest, intercalate_splitOn]
    exact (List.prefix_append_right_inj xs).2 (List.prefix_append [sep] _)

/-! ## Lines of a source -/

theorem ne_newline_of_mem_sourceLines {content line : String} (h : line ∈ sourceLines content) :
    ∀ c ∈ line.toList, c ≠ '\n' := by
  obtain ⟨piece, hpiece, rfl⟩ := List.mem_map.1 h
  rw [String.toList_ofList]
  exact ne_of_mem_splitOn hpiece

theorem sourceLines_intercalate {lines : List String} (hne : lines ≠ [])
    (h : ∀ line ∈ lines, ∀ c ∈ line.toList, c ≠ '\n') :
    sourceLines (String.intercalate "\n" lines) = lines := by
  unfold sourceLines
  rw [String.toList_intercalate]
  have hpieces : splitOn '\n' (['\n'].intercalate (lines.map String.toList)) =
      lines.map String.toList :=
    splitOn_intercalate (by simpa using hne) (by simpa using h)
  rw [show "\n".toList = ['\n'] from rfl, hpieces, List.map_map]
  simp [Function.comp_def]

/-- The source with more text at the end of one of its lines; lines count from 1. -/
def lengthened (line : Nat) (addition content : String) : String :=
  String.intercalate "\n" ((sourceLines content).modify (line - 1) (· ++ addition))

theorem sourceLines_lengthened (line : Nat) {addition : String}
    (h : ∀ c ∈ addition.toList, c ≠ '\n') (content : String) :
    sourceLines (lengthened line addition content) =
      (sourceLines content).modify (line - 1) (· ++ addition) := by
  apply sourceLines_intercalate
  · rw [← List.length_pos_iff, List.length_modify, sourceLines, List.length_map,
      List.length_pos_iff]
    exact splitOn_ne_nil '\n' content.toList
  · intro text htext
    obtain ⟨i, hi⟩ := List.mem_iff_getElem?.1 htext
    rw [List.getElem?_modify] at hi
    obtain ⟨old, hold, rfl⟩ := Option.map_eq_some_iff.1 hi
    have hclean := ne_newline_of_mem_sourceLines (List.mem_of_getElem? hold)
    split
    · rw [String.toList_append]
      exact List.forall_mem_append.2 ⟨hclean, h⟩
    · exact hclean

end Text

namespace Utf8

theorem ne_newline_of_mem_encodeChar {c : Char} (hc : c ≠ '\n') {b : UInt8}
    (hb : b ∈ String.utf8EncodeChar c) : b ≠ 0x0A := by
  rintro rfl
  have hmany (v : Nat) : continuation v ≠ 0x0A := by
    intro h
    have := le_continuation v
    rw [h] at this
    exact absurd this (by decide)
  have hfirst {n : Nat} (h : 0x80 ≤ n) (h' : n < 0x100) : (0x0A : UInt8) ≠ .ofNat n := by
    intro heq
    have := congrArg UInt8.toNat heq
    rw [UInt8.toNat_ofNat'] at this
    simp only [UInt8.reduceToNat] at this
    omega
  rcases utf8EncodeChar_cases c with ⟨h, heq⟩ | ⟨h, h', heq⟩ | ⟨h, h', -, heq⟩ | ⟨h, h', heq⟩
  · rw [heq, List.mem_singleton] at hb
    have := congrArg UInt8.toNat hb
    rw [UInt8.toNat_ofNat', Nat.mod_eq_of_lt (by omega)] at this
    exact hc (by rw [← Char.ofNat_toNat c, ← this]; rfl)
  all_goals
    rw [heq] at hb
    simp only [List.mem_cons, List.not_mem_nil, or_false, (hmany _).symm] at hb
    exact hfirst (by omega) (by omega) hb

/-- The lines of encoded text are the encoded lines. -/
theorem splitOn_encode (cs : List Char) :
    Text.splitOn 0x0A (encode cs) = (Text.splitOn '\n' cs).map encode := by
  induction cs with
  | nil => rfl
  | cons c cs ih =>
    rw [encode_cons]
    by_cases hc : c = '\n'
    · subst hc
      rw [Text.splitOn_cons_self, List.map_cons, ← ih]
      exact Text.splitOn_cons_self _
    · obtain ⟨first, rest, hcs⟩ := Text.exists_splitOn_eq_cons '\n' cs
      rw [hcs, List.map_cons] at ih
      rw [Text.splitOn_cons_of_ne hc hcs, List.map_cons, encode_cons]
      exact Text.splitOn_append_of_forall_ne (fun b => ne_newline_of_mem_encodeChar hc) ih

end Utf8

end FlakeLint
