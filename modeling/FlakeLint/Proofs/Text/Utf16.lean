-- SUMMARY: Texts in 16-bit units and what they stand for: strings, and halves that stand alone.
import FlakeLint.Report.Terminal

/-!
# Texts and strings

Units and glyphs determine each other, whatever the units are. A string has one
spelling in units and is found again from it. So a text is a string exactly if no
half stands alone in it, and only then can it be encoded.
-/

namespace FlakeLint.Utf16

-- ---------------------------------------------------------------------------
-- Units of characters
-- ---------------------------------------------------------------------------

section

variable {high low unit : UInt16} {c : Char}

theorem isHigh_iff : isHigh unit ↔ 0xD800 ≤ unit.toNat ∧ unit.toNat < 0xDC00 := by
  simp [isHigh]

theorem isLow_iff : isLow unit ↔ 0xDC00 ≤ unit.toNat ∧ unit.toNat < 0xE000 := by
  simp [isLow]

theorem toNat_charOfNat {n : Nat} (h : n.isValidChar) : (Char.ofNat n).toNat = n := by
  rw [Char.ofNat, dif_pos h]
  rfl

/-- A character is one unit that is no half, or a pair of halves. -/
theorem unitsOf_cases (c : Char) :
    (∃ unit, unitsOf c = [unit] ∧ isHigh unit = false ∧ isLow unit = false ∧
      Char.ofNat unit.toNat = c) ∨
    ∃ high low, unitsOf c = [high, low] ∧ isHigh high ∧ isLow low ∧ join high low = c := by
  have hvalid : c.toNat < 0xD800 ∨ 0xDFFF < c.toNat ∧ c.toNat < 0x110000 := c.valid
  unfold unitsOf
  dsimp only
  split
  · next hsmall =>
    have hunit := UInt16.toNat_ofNat_of_lt' hsmall
    refine .inl ⟨_, rfl, ?_, ?_, by rw [hunit, Char.ofNat_toNat]⟩
    · rw [← Bool.not_eq_true, isHigh_iff, hunit]
      omega
    · rw [← Bool.not_eq_true, isLow_iff, hunit]
      omega
  · next hlarge =>
    have hhigh := UInt16.toNat_ofNat_of_lt' (n := 0xD800 + (c.toNat - 0x10000) / 0x400) (by unfold UInt16.size; omega)
    have hlow := UInt16.toNat_ofNat_of_lt' (n := 0xDC00 + (c.toNat - 0x10000) % 0x400) (by unfold UInt16.size; omega)
    refine .inr ⟨_, _, rfl, ?_, ?_, ?_⟩
    · rw [isHigh_iff, hhigh]
      omega
    · rw [isLow_iff, hlow]
      omega
    · have hcode : 0x10000 + (0xD800 + (c.toNat - 0x10000) / 0x400 - 0xD800) * 0x400 +
          (0xDC00 + (c.toNat - 0x10000) % 0x400 - 0xDC00) = c.toNat := by
        omega
      rw [join, hhigh, hlow, hcode, Char.ofNat_toNat]

/-- Two halves are the units of the character that they make up. -/
theorem unitsOf_join (hhigh : isHigh high) (hlow : isLow low) : unitsOf (join high low) = [high, low] := by
  rw [isHigh_iff] at hhigh
  rw [isLow_iff] at hlow
  have hjoin : (join high low).toNat =
      0x10000 + (high.toNat - 0xD800) * 0x400 + (low.toNat - 0xDC00) := by
    apply toNat_charOfNat
    unfold Nat.isValidChar
    omega
  have hfirst : 0xD800 + ((join high low).toNat - 0x10000) / 0x400 = high.toNat := by omega
  have hsecond : 0xDC00 + ((join high low).toNat - 0x10000) % 0x400 = low.toNat := by omega
  unfold unitsOf
  dsimp only
  rw [if_neg (by omega), hfirst, hsecond, UInt16.ofNat_toNat, UInt16.ofNat_toNat]

theorem units_ofUnit (unit : UInt16) : (Glyph.ofUnit unit).units = [unit] := by
  unfold Glyph.ofUnit
  split
  · rfl
  · next hhalf =>
    simp only [Bool.or_eq_true, isHigh_iff, isLow_iff] at hhalf
    have hlt := unit.toNat_lt
    have hchar : (Char.ofNat unit.toNat).toNat = unit.toNat := by
      apply toNat_charOfNat
      unfold Nat.isValidChar
      omega
    unfold Glyph.units unitsOf
    dsimp only
    rw [hchar, if_pos hlt, UInt16.ofNat_toNat]

end

-- ---------------------------------------------------------------------------
-- Glyphs
-- ---------------------------------------------------------------------------

/-- No units are lost: the glyphs have the units that they were made from. -/
theorem flatMap_units_glyphsOf (units : List UInt16) : (glyphsOf units).flatMap Glyph.units = units := by
  fun_induction glyphsOf units with
  | case1 => rfl
  | case2 unit => rw [List.flatMap_singleton, units_ofUnit]
  | case3 unit next rest hpair ih =>
    rw [Bool.and_eq_true] at hpair
    rw [List.flatMap_cons, ih, Glyph.units, unitsOf_join hpair.1 hpair.2]
    rfl
  | case4 unit next rest hpair ih =>
    rw [List.flatMap_cons, ih, units_ofUnit]
    rfl

theorem glyphsOf_unitsOf_append (c : Char) (units : List UInt16) :
    glyphsOf (unitsOf c ++ units) = .char c :: glyphsOf units := by
  rcases unitsOf_cases c with ⟨unit, hunits, hhigh, hlow, hchar⟩ | ⟨high, low, hunits, hhigh, hlow, hchar⟩
  · have hglyph : Glyph.ofUnit unit = .char c := by
      simp [Glyph.ofUnit, hhigh, hlow, hchar]
    rw [hunits, List.singleton_append]
    cases units with
    | nil => rw [glyphsOf, glyphsOf, hglyph]
    | cons next rest => rw [glyphsOf, hhigh, Bool.false_and, if_neg Bool.false_ne_true, hglyph]
  · have hpair : (isHigh high && isLow low) = true := by
      rw [hhigh, hlow]
      rfl
    rw [hunits, List.cons_append, List.singleton_append, glyphsOf, if_pos hpair, hchar]

theorem glyphs_ofString (s : String) : (ofString s).glyphs = s.toList.map .char := by
  unfold glyphs ofString
  dsimp only
  induction s.toList with
  | nil => rfl
  | cons c cs ih => rw [List.flatMap_cons, glyphsOf_unitsOf_append, ih, List.map_cons]

/-- Texts with the same glyphs are the same. -/
theorem eq_of_glyphs_eq {text other : Utf16} (h : text.glyphs = other.glyphs) : text = other := by
  have hunits := congrArg (List.flatMap Glyph.units) h
  rw [glyphs, glyphs, flatMap_units_glyphsOf, flatMap_units_glyphsOf] at hunits
  cases text
  cases other
  exact congrArg Utf16.mk hunits

-- ---------------------------------------------------------------------------
-- Strings
-- ---------------------------------------------------------------------------

variable {text : Utf16} {s t : String}

theorem ofString_injective (h : ofString s = ofString t) : s = t := by
  have hglyphs := congrArg glyphs h
  rw [glyphs_ofString, glyphs_ofString] at hglyphs
  exact String.toList_injective ((List.map_inj_right fun _ _ => Glyph.char.inj).1 hglyphs)

@[simp] theorem ofString_inj : ofString s = ofString t ↔ s = t :=
  ⟨ofString_injective, congrArg ofString⟩

-- ---------------------------------------------------------------------------
-- Encoding
-- ---------------------------------------------------------------------------

theorem halvesFrom?_eq_none_iff {position : Nat} {glyphs : List Glyph} :
    halvesFrom? position glyphs = none ↔ ∃ cs : List Char, glyphs = cs.map .char := by
  induction glyphs generalizing position with
  | nil => exact iff_of_true rfl ⟨[], rfl⟩
  | cons glyph glyphs ih =>
    cases glyph with
    | half unit =>
      refine iff_of_false nofun ?_
      rintro ⟨_ | ⟨c, cs⟩, hcs⟩
      · cases hcs
      · cases hcs
    | char c =>
      rw [halvesFrom?, ih]
      constructor
      · rintro ⟨cs, rfl⟩
        exact ⟨c :: cs, rfl⟩
      · rintro ⟨_ | ⟨d, cs⟩, hcs⟩
        · cases hcs
        · exact ⟨cs, (List.cons.inj hcs).2⟩

/-- A text can be encoded exactly if it is a string. -/
theorem halves?_eq_none_iff : text.halves? = none ↔ ∃ s, text = ofString s := by
  unfold halves?
  rw [halvesFrom?_eq_none_iff]
  constructor
  · rintro ⟨cs, hcs⟩
    exact ⟨String.ofList cs, eq_of_glyphs_eq (by rw [hcs, glyphs_ofString, String.toList_ofList])⟩
  · rintro ⟨s, rfl⟩
    exact ⟨s.toList, glyphs_ofString s⟩

end FlakeLint.Utf16
