-- SUMMARY: Related selectors: equality, containment, and the ids and classes that two selectors share.
import FlakeLint.Analysis.Selector
import FlakeLint.Proofs.Text.Words

/-!
# Related selectors

Two selectors are of one family if, without quotes, one contains the other, or if an
id or a class of the one is an id or a class of the other. The analysis compares the
first ids and the first classes only. So it finds families and nothing else, but not
those that share a later id or class.
-/

namespace FlakeLint.Selector

open FlakeLint.Text

variable {mark : Char} {name text : List Char}

-- ---------------------------------------------------------------------------
-- Fragments
-- ---------------------------------------------------------------------------

/-- The text begins with the mark and a whole name behind it. -/
def BeginsWith (mark : Char) (name rest : List Char) : Prop :=
  name ≠ [] ∧ (∀ c ∈ name, isNameChar c = true) ∧
    ∃ behind, rest = mark :: (name ++ behind) ∧ ∀ c ∈ behind.head?, isNameChar c = false

/-- The mark stands somewhere in the text with the whole name behind it. -/
def HasFragment (mark : Char) (text name : List Char) : Prop :=
  ∃ rest, rest <:+ text ∧ BeginsWith mark name rest

theorem not_beginsWith_nil : ¬ BeginsWith mark name [] := by
  rintro ⟨-, -, behind, hnil, -⟩
  cases hnil

theorem beginsWith_cons_iff {c : Char} {cs : List Char} :
    BeginsWith mark name (c :: cs) ↔
      c = mark ∧ cs.takeWhile isNameChar ≠ [] ∧ cs.takeWhile isNameChar = name := by
  constructor
  · rintro ⟨hne, hname, behind, hsplit, hbehind⟩
    obtain ⟨rfl, rfl⟩ := List.cons.inj hsplit
    have hwhole : (name ++ behind).takeWhile isNameChar = name := by
      rw [List.takeWhile_append_of_pos hname]
      cases behind with
      | nil => rw [List.takeWhile_nil, List.append_nil]
      | cons d behind =>
        rw [List.takeWhile_cons_of_neg (by simp [hbehind d rfl]), List.append_nil]
    rw [hwhole]
    exact ⟨rfl, hne, rfl⟩
  · rintro ⟨rfl, hne, rfl⟩
    refine ⟨hne, List.all_eq_true.1 List.all_takeWhile, cs.dropWhile isNameChar, ?_, ?_⟩
    · rw [List.takeWhile_append_dropWhile]
    · intro d hd
      have := List.head?_dropWhile_not isNameChar cs
      rw [hd] at this
      simpa using this

theorem hasFragment_cons_iff {c : Char} {cs : List Char} :
    HasFragment mark (c :: cs) name ↔ BeginsWith mark name (c :: cs) ∨ HasFragment mark cs name := by
  unfold HasFragment
  simp only [List.suffix_cons_iff, or_and_right, exists_or, exists_eq_left]

/-- All names behind a mark, in the order in which they stand in the text. -/
def fragments (mark : Char) : List Char → List (List Char)
  | [] => []
  | c :: cs =>
    if c = mark ∧ cs.takeWhile isNameChar ≠ [] then
      cs.takeWhile isNameChar :: fragments mark cs
    else fragments mark cs

theorem mem_fragments_iff : name ∈ fragments mark text ↔ HasFragment mark text name := by
  induction text with
  | nil =>
    refine iff_of_false List.not_mem_nil ?_
    rintro ⟨rest, hrest, hbegins⟩
    rw [List.suffix_nil.1 hrest] at hbegins
    exact not_beginsWith_nil hbegins
  | cons c cs ih =>
    rw [fragments, hasFragment_cons_iff, beginsWith_cons_iff, ← and_assoc, ← ih]
    split
    · next hhere =>
      rw [List.mem_cons, eq_comm]
      simp only [iff_true_intro hhere, true_and]
    · next hhere => simp only [hhere, false_and, false_or]

instance (mark : Char) (text name : List Char) : Decidable (HasFragment mark text name) :=
  decidable_of_iff _ mem_fragments_iff

/-- The fragment that the analysis looks at is the first one. -/
theorem fragment?_eq_head? (mark : Char) (text : List Char) :
    fragment? mark text = (fragments mark text).head? := by
  induction text with
  | nil => rfl
  | cons c cs ih =>
    rw [fragment?, fragments, ih]
    by_cases hmark : c = mark
    · cases hname : cs.takeWhile isNameChar with
      | nil => simp
      | cons d name => simp [hmark]
    · simp [hmark]

theorem sameFragment_iff {x y : List Char} :
    sameFragment mark x y = true ↔
      ∃ name, (fragments mark x).head? = some name ∧ (fragments mark y).head? = some name := by
  unfold sameFragment
  rw [fragment?_eq_head?, fragment?_eq_head?]
  cases (fragments mark x).head? with
  | none => simp
  | some found =>
    cases (fragments mark y).head? with
    | none => simp
    | some other => simpa using eq_comm

-- ---------------------------------------------------------------------------
-- Families of selectors
-- ---------------------------------------------------------------------------

/-- What an id and a class begin with. -/
def marks : List Char := ['#', '.']

/-- One of the cleaned selectors contains the other. -/
def OneContainsOther (a b : String) : Prop :=
  clean a = clean b ∨ clean a <:+: clean b ∨ clean b <:+: clean a

/-- One contains the other, or they share an id or a class. -/
def SameFamily (a b : String) : Prop :=
  OneContainsOther a b ∨
    ∃ mark ∈ marks, ∃ name, HasFragment mark (clean a) name ∧ HasFragment mark (clean b) name

/-- One contains the other, or their first ids or their first classes agree. -/
def SameFirst (a b : String) : Prop :=
  OneContainsOther a b ∨
    ∃ mark ∈ marks, ∃ name, (fragments mark (clean a)).head? = some name ∧
      (fragments mark (clean b)).head? = some name

/-- A selector without two different ids and without two different classes. -/
def IsPlain (selector : String) : Prop :=
  ∀ mark ∈ marks, ∀ name other, HasFragment mark (clean selector) name →
    HasFragment mark (clean selector) other → name = other

instance (selector : String) : Decidable (IsPlain selector) :=
  decidable_of_iff
    (marks.all fun mark =>
      let names := fragments mark (clean selector)
      names.all fun name => names.all fun other => name == other)
    (by
      simp only [IsPlain, List.all_eq_true, beq_iff_eq, mem_fragments_iff]
      exact ⟨fun h mark hmark name other hname => h mark hmark name hname other,
        fun h mark hmark name hname other => h mark hmark name other hname⟩)

variable {a b : String}

theorem related_iff : related a b = true ↔ SameFirst a b := by
  have hmarks : (∃ mark ∈ marks, ∃ name, (fragments mark (clean a)).head? = some name ∧
      (fragments mark (clean b)).head? = some name) ↔
      sameFragment '#' (clean a) (clean b) = true ∨ sameFragment '.' (clean a) (clean b) = true := by
    simp only [marks, List.exists_mem_cons_iff, List.not_mem_nil, false_and, exists_false, or_false,
      sameFragment_iff]
  unfold related SameFirst OneContainsOther
  rw [hmarks]
  simp only [Bool.or_eq_true, beq_iff_eq, containsChars_iff, or_assoc]
  constructor
  · rintro (rfl | h)
    · exact .inl rfl
    · exact h
  · exact .inr

theorem sameFamily_of_sameFirst (h : SameFirst a b) : SameFamily a b := by
  rcases h with hcontains | ⟨mark, hmark, name, ha, hb⟩
  · exact .inl hcontains
  · exact .inr ⟨mark, hmark, name, mem_fragments_iff.1 (List.mem_of_head? ha),
      mem_fragments_iff.1 (List.mem_of_head? hb)⟩

theorem head?_fragments_of_isPlain {selector : String} (h : IsPlain selector) (hmark : mark ∈ marks)
    (hname : HasFragment mark (clean selector) name) :
    (fragments mark (clean selector)).head? = some name := by
  cases hfragments : fragments mark (clean selector) with
  | nil =>
    rw [← mem_fragments_iff, hfragments] at hname
    cases hname
  | cons first others =>
    have hfirst : HasFragment mark (clean selector) first :=
      mem_fragments_iff.1 (hfragments ▸ List.mem_cons_self)
    rw [List.head?_cons, h mark hmark first name hfirst hname]

theorem sameFirst_of_sameFamily (ha : IsPlain a) (hb : IsPlain b) (h : SameFamily a b) :
    SameFirst a b := by
  rcases h with hcontains | ⟨mark, hmark, name, hfirst, hsecond⟩
  · exact .inl hcontains
  · exact .inr ⟨mark, hmark, name, head?_fragments_of_isPlain ha hmark hfirst,
      head?_fragments_of_isPlain hb hmark hsecond⟩

theorem SameFirst.refl (a : String) : SameFirst a a :=
  .inl (.inl rfl)

theorem SameFirst.symm (h : SameFirst a b) : SameFirst b a := by
  rcases h with (heq | hle | hle) | ⟨mark, hmark, name, ha, hb⟩
  · exact .inl (.inl heq.symm)
  · exact .inl (.inr (.inr hle))
  · exact .inl (.inr (.inl hle))
  · exact .inr ⟨mark, hmark, name, hb, ha⟩

/-- Selectors are related exactly if one contains the other or their first ids or first classes agree.
Then they are of one family; selectors of one family are related if each has one id and one class at
most. -/
theorem related_iff_sameFirst (a b : String) :
    (related a b = true ↔ SameFirst a b) ∧
    (related a b = true → SameFamily a b) ∧
    (IsPlain a → IsPlain b → (related a b = true ↔ SameFamily a b)) ∧
    related a a = true ∧ related b a = related a b := by
  refine ⟨related_iff, fun h => sameFamily_of_sameFirst (related_iff.1 h), fun ha hb => ?_,
    related_iff.2 (.refl a), ?_⟩
  · rw [related_iff]
    exact ⟨sameFamily_of_sameFirst, sameFirst_of_sameFamily ha hb⟩
  · rw [Bool.eq_iff_iff, related_iff, related_iff]
    exact ⟨.symm, .symm⟩

/-- The selectors share their last id, but their first ids differ. Without a first id in the way the
same id relates two selectors. -/
theorem related_of_shared_id :
    SameFamily "#form #email" "#page #email" ∧ ¬ IsPlain "#form #email" ∧
    related "#form #email" "#page #email" = false ∧
    ¬ SameFirst "#form #email" "#page #email" ∧
    IsPlain "form #email" ∧ IsPlain "main #email" ∧ related "form #email" "main #email" = true := by
  have hlast : HasFragment '#' (clean "#form #email") "email".toList ∧
      HasFragment '#' (clean "#page #email") "email".toList := by decide +kernel
  have hfirst : HasFragment '#' (clean "form #email") "email".toList ∧
      HasFragment '#' (clean "main #email") "email".toList := by decide +kernel
  have hunrelated : related "#form #email" "#page #email" = false := by decide +kernel
  have hform : IsPlain "form #email" := by decide +kernel
  have hmain : IsPlain "main #email" := by decide +kernel
  refine ⟨.inr ⟨'#', by decide, _, hlast⟩, by decide +kernel, hunrelated, fun hsame => ?_, hform,
    hmain, ((related_iff_sameFirst _ _).2.2.1 hform hmain).2 (.inr ⟨'#', by decide, _, hfirst⟩)⟩
  rw [(related_iff_sameFirst _ _).1.2 hsame] at hunrelated
  cases hunrelated

end FlakeLint.Selector
