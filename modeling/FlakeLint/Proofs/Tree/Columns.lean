-- SUMMARY: Columns in characters: how many characters of a line start before a byte of it.
import FlakeLint.Proofs.Tree.Nesting

/-!
# Columns in characters

A byte column of a line stands for the number of characters that start before it.
At the first byte of a character this is the number of characters on its left; at
any later byte of it, the character itself is counted too.
-/

namespace FlakeLint

-- ---------------------------------------------------------------------------
-- Where characters start
-- ---------------------------------------------------------------------------

namespace Utf8

/-- The byte at which a character of a text starts, by the number of characters before it. -/
def offsetOf (cs : List Char) (k : Nat) : Nat :=
  (encode (cs.take k)).length

@[simp]
theorem offsetOf_zero (cs : List Char) : offsetOf cs 0 = 0 := rfl

@[simp]
theorem offsetOf_cons_succ (c : Char) (cs : List Char) (k : Nat) :
    offsetOf (c :: cs) (k + 1) = c.utf8Size + offsetOf cs k := by
  unfold offsetOf
  rw [List.take_succ_cons, encode_cons, List.length_append, String.length_utf8EncodeChar]

theorem offsetOf_lt_succ {cs : List Char} {k : Nat} (hk : k < cs.length) :
    offsetOf cs k < offsetOf cs (k + 1) := by
  induction cs generalizing k with
  | nil => cases hk
  | cons c cs ih =>
    cases k with
    | zero => simpa using c.utf8Size_pos
    | succ k => simpa using ih (Nat.lt_of_succ_lt_succ hk)

theorem startedBefore_zero (cs : List Char) : startedBefore cs 0 = 0 := by
  cases cs with
  | nil => rfl
  | cons c cs => exact if_pos rfl

theorem startedBefore_eq_countP (cs : List Char) (n : Nat) :
    startedBefore cs n = (List.range cs.length).countP fun k => offsetOf cs k < n := by
  induction cs generalizing n with
  | nil => rfl
  | cons c cs ih =>
    rw [List.length_cons, List.range_succ_eq_map, List.countP_cons, List.countP_map, startedBefore]
    by_cases hzero : n = 0
    · simp [hzero, Function.comp_def]
    · have hlater (k : Nat) : c.utf8Size + offsetOf cs k < n ↔ offsetOf cs k < n - c.utf8Size := by
        omega
      simp [hzero, ih, hlater, Function.comp_def, Nat.pos_of_ne_zero]

/-- Between the first byte of a character and that of the next one, the character is the last that has
started. -/
theorem startedBefore_of_mem_char {cs : List Char} {k n : Nat} (hk : k < cs.length)
    (hlow : offsetOf cs k < n) (hhigh : n ≤ offsetOf cs (k + 1)) : startedBefore cs n = k + 1 := by
  induction cs generalizing k n with
  | nil => cases hk
  | cons c cs ih =>
    rw [startedBefore, if_neg (by omega)]
    congr 1
    cases k with
    | zero =>
      rw [offsetOf_cons_succ, offsetOf_zero, Nat.add_zero] at hhigh
      rw [Nat.sub_eq_zero_of_le hhigh, startedBefore_zero]
    | succ k =>
      rw [offsetOf_cons_succ] at hlow hhigh
      exact ih (Nat.lt_of_succ_lt_succ hk) (by omega) (by omega)

/-- At the first byte of a character, those before it have started. -/
theorem startedBefore_offsetOf {cs : List Char} {k : Nat} (hk : k ≤ cs.length) :
    startedBefore cs (offsetOf cs k) = k := by
  cases k with
  | zero => exact startedBefore_zero cs
  | succ k => exact startedBefore_of_mem_char hk (offsetOf_lt_succ hk) le_rfl

end Utf8

-- ---------------------------------------------------------------------------
-- Columns of a source
-- ---------------------------------------------------------------------------

/-- With the table of lines that a source is parsed to, the column in characters of a byte column is the
number of characters of the line that start before it. So the byte at which a character starts has the
number of that character as its column and the bytes inside a character that of the next one, columns
grow with the bytes, and none lies behind the end of its line. -/
theorem charColumn_counts_characters {content line : String} {row : Nat}
    (h : (Text.sourceLines content)[row]? = some line) :
    let lines := byteLines (Utf8.encode content.toList)
    let offset := Utf8.offsetOf line.toList
    (∀ (parsers : Parsers) (path : String) (asked : Option String) (result : ParseResult),
      parsers.parse path content asked = .ok result → result.parsed.lines = lines) ∧
    (∀ column : Nat, charColumn lines row column =
      ((List.range line.length).countP fun k => offset k < column : Nat)) ∧
    (∀ k : Nat, k ≤ line.length → charColumn lines row (offset k : Nat) = k) ∧
    (∀ k column : Nat, k < line.length → offset k < column → column ≤ offset (k + 1) →
      charColumn lines row column = (k + 1 : Nat)) ∧
    (∀ column column' : Nat, column ≤ column' →
      charColumn lines row column ≤ charColumn lines row column') ∧
    ∀ column : Nat, charColumn lines row column ≤ line.length := by
  intro lines offset
  have hline : (Text.splitOn '\n' content.toList)[row]? = some line.toList := by
    unfold Text.sourceLines at h
    rw [List.getElem?_map, Option.map_eq_some_iff] at h
    obtain ⟨cs, hcs, rfl⟩ := h
    rwa [String.toList_ofList]
  have hcolumn := charColumn_eq hline
  refine ⟨fun _ _ _ _ => Parsers.lines_of_parse, fun column => ?_, fun k hk => ?_,
    fun k column hk hlow hhigh => ?_, fun column column' hle => ?_, fun column => ?_⟩
  · rw [hcolumn, Utf8.startedBefore_eq_countP, String.length_toList]
  · rw [hcolumn, Utf8.startedBefore_offsetOf hk]
  · rw [hcolumn, Utf8.startedBefore_of_mem_char hk hlow hhigh]
  · rw [hcolumn, hcolumn]
    exact_mod_cast Utf8.startedBefore_mono _ hle
  · rw [hcolumn]
    exact_mod_cast Utf8.startedBefore_le_length _ _

namespace Sample

/-- Two lines of text; the second has a character of two bytes and one of four. -/
def wideText : String := "a\nü😀"

def wideOutline : Outline := piece (.other "program") none 0 8 []

def wideParsers : Parsers := ⟨[defaultGrammar], [(defaultGrammar, wideOutline)]⟩

end Sample

/-- The fourth byte of the second line lies inside its second character, which starts at the second
byte. -/
theorem charColumn_inside_wide_character :
    (Text.sourceLines Sample.wideText)[1]? = some "ü😀" ∧
    ∃ result, Sample.wideParsers.parse "a.js" Sample.wideText none = .ok result ∧
      charColumn result.parsed.lines 1 2 = 1 ∧ charColumn result.parsed.lines 1 4 = 2 ∧
      charColumn result.parsed.lines 1 1000 ≤ 2 := by
  have hline : (Text.sourceLines Sample.wideText)[1]? = some "ü😀" := by decide +kernel
  have hparse : Sample.wideParsers.parse "a.js" Sample.wideText none =
      .ok ⟨⟨Sample.wideOutline.place ⟨(Utf8.encode Sample.wideText.toList).toArray⟩
          (pointsOf (Utf8.encode Sample.wideText.toList)),
        "javascript", byteLines (Utf8.encode Sample.wideText.toList)⟩, false⟩ := rfl
  obtain ⟨htable, -, hstart, hinside, -, hend⟩ := charColumn_counts_characters hline
  refine ⟨hline, _, hparse, ?_⟩
  rw [htable _ _ _ _ hparse]
  exact ⟨hstart 1 (by decide), hinside 1 4 (by decide) (by decide) (by decide), hend 1000⟩

end FlakeLint
