-- SUMMARY: What is written as JSON is read back as it was.
import FlakeLint.Json.Reader
import FlakeLint.Json.Writer
import FlakeLint.Proofs.Table
import FlakeLint.Proofs.Text.Utf16
import Mathlib.Algebra.Group.Nat.Defs

/-!
# Written documents are read back

The reader inverts the writer, piece by piece: a unit and its escape, a text and
what stands between its quotes, a value and its lines. Texts are any units, halves of
pairs among them. Values with numbers are left out here. A table with a key twice, which no
reader can give, is read with the last value of that key.
-/

namespace FlakeLint.Json

open FlakeLint.Text

-- ---------------------------------------------------------------------------
-- Characters
-- ---------------------------------------------------------------------------

theorem baseDigit?_hexDigit : ∀ d < 16, baseDigit? (hexDigit d) = some d := by
  decide

theorem hexValue?_append_singleton (cs : List Char) (c : Char) :
    hexValue? (cs ++ [c]) = (hexValue? cs).bind fun value =>
      (baseDigit? c).bind fun d => if d < 16 then some (value * 16 + d) else none := by
  simp [hexValue?, List.foldlM_append]

theorem hexValue?_hexDigits (width n : Nat) :
    hexValue? (hexDigits width n) = some (n % 16 ^ width) := by
  induction width generalizing n with
  | zero => simp [hexDigits, hexValue?, Nat.mod_one]
  | succ width ih =>
    have hlast : n % 16 < 16 := Nat.mod_lt n (by decide)
    simp only [hexDigits, hexValue?_append_singleton, ih, Option.bind_some,
      baseDigit?_hexDigit _ hlast, hlast, if_true]
    rw [Nat.pow_succ', Nat.mod_mul]
    congr 1
    omega

section

variable (charset : Charset) (done : List UInt16) (rest : List Char)

/-- A unit is read from its four digits. -/
theorem readText_unicodeEscape (unit : UInt16) :
    readText done (unicodeEscape unit.toNat ++ rest) = readText (unit :: done) rest := by
  obtain ⟨a, b, c, d, hdigits⟩ : ∃ a b c d, hexDigits 4 unit.toNat = [a, b, c, d] :=
    ⟨_, _, _, _, rfl⟩
  have hvalue : hexValue? [a, b, c, d] = some unit.toNat := by
    rw [← hdigits, hexValue?_hexDigits]
    exact congrArg some (Nat.mod_eq_of_lt unit.toNat_lt)
  simp [unicodeEscape, hdigits, readText, hvalue]

theorem readText_flatMap_unicodeEscape (units : List UInt16) :
    readText done ((units.flatMap fun unit => unicodeEscape unit.toNat) ++ rest) =
      readText (units.reverse ++ done) rest := by
  induction units generalizing done with
  | nil => rfl
  | cons unit units ih =>
    rw [List.flatMap_cons, List.append_assoc, readText_unicodeEscape, ih, List.reverse_cons,
      List.append_assoc, List.singleton_append]

/-- A character is read from what is written for it. -/
theorem readText_escapeChar (c : Char) :
    readText done (escapeChar charset c ++ rest) =
      readText ((Utf16.unitsOf c).reverse ++ done) rest := by
  unfold escapeChar
  split
  · next escape hescape =>
    unfold shortEscape? at hescape
    split at hescape <;> cases hescape <;> simp [readText, simpleEscape?]
  · next hescape =>
    by_cases hholds : charset.holds c
    · have hquote : c ≠ '"' := by rintro rfl; cases hescape
      have hslash : c ≠ '\\' := by rintro rfl; cases hescape
      have hcode : ¬ c.toNat < 0x20 := by
        cases charset <;> simp [Charset.holds] at hholds <;> omega
      simp [hholds, readText, hslash, hcode]
    · simp only [hholds, Bool.false_eq_true, if_false]
      exact readText_flatMap_unicodeEscape done rest _

theorem readText_escapeGlyph (glyph : Utf16.Glyph) :
    readText done (escapeGlyph charset glyph ++ rest) =
      readText (glyph.units.reverse ++ done) rest := by
  cases glyph with
  | char c => exact readText_escapeChar charset done rest c
  | half unit => exact readText_unicodeEscape done rest unit

-- ---------------------------------------------------------------------------
-- Texts
-- ---------------------------------------------------------------------------

theorem readText_flatMap (glyphs : List Utf16.Glyph) :
    readText done (glyphs.flatMap (escapeGlyph charset) ++ '"' :: rest) =
      .ok (⟨done.reverse ++ glyphs.flatMap Utf16.Glyph.units⟩, rest) := by
  induction glyphs generalizing done with
  | nil => simp [readText]
  | cons glyph glyphs ih =>
    rw [List.flatMap_cons, List.append_assoc, readText_escapeGlyph, ih]
    simp

end

/-- A text is read from what stands behind its opening quote. -/
theorem readText_writeText (charset : Charset) (text : Utf16) (rest : List Char) :
    ∃ body, writeText charset text ++ rest = '"' :: body ∧ readText [] body = .ok (text, rest) := by
  refine ⟨text.glyphs.flatMap (escapeGlyph charset) ++ '"' :: rest, by simp [writeText], ?_⟩
  rw [readText_flatMap, List.reverse_nil, List.nil_append, Utf16.glyphs,
    Utf16.flatMap_units_glyphsOf]

-- ---------------------------------------------------------------------------
-- Gaps
-- ---------------------------------------------------------------------------

theorem skipGap_append {gap : List Char} (h : ∀ c ∈ gap, isGap c) (rest : List Char) :
    skipGap (gap ++ rest) = skipGap rest := by
  rw [skipGap, skipGap, List.dropWhile_append_of_pos h]

theorem isGap_of_mem_newline (level : Nat) : ∀ c ∈ newline level, isGap c := by
  intro c hc
  rcases List.mem_cons.1 hc with rfl | hc
  · rfl
  · rw [List.eq_of_mem_replicate hc]
    rfl

theorem skipGap_cons {c : Char} (h : isGap c = false) (rest : List Char) :
    skipGap (c :: rest) = c :: rest := by
  simp [skipGap, h]

-- ---------------------------------------------------------------------------
-- Values
-- ---------------------------------------------------------------------------

mutual
/-- Is the value read back as it is written: is it free of numbers and of keys that occur twice, and
does it nest no deeper than `depth`? -/
def isReadable (depth : Nat) : Json → Bool
  | .null | .bool _ | .text _ => true
  | .number _ => false
  | .list items => 0 < depth && areReadable (depth - 1) items
  | .table entries => 0 < depth && (Table.keys entries).Nodup && entriesAreReadable (depth - 1) entries

def areReadable (depth : Nat) : List Json → Bool
  | [] => true
  | item :: items => item.isReadable depth && areReadable depth items

def entriesAreReadable (depth : Nat) : List (Utf16 × Json) → Bool
  | [] => true
  | (_, value) :: entries => value.isReadable depth && entriesAreReadable depth entries
end

/-- What is written for a value starts with neither a gap nor the end of a list. -/
theorem exists_write_eq_cons (charset : Charset) (level : Nat) {depth : Nat} {v : Json}
    (h : v.isReadable depth) :
    ∃ c cs, write charset level v = c :: cs ∧ isGap c = false ∧ c ≠ ']' := by
  cases v with
  | null => exact ⟨_, _, rfl, rfl, by decide⟩
  | bool b => cases b <;> exact ⟨_, _, rfl, rfl, by decide⟩
  | number n => simp [isReadable] at h
  | text s => exact ⟨_, _, rfl, rfl, by decide⟩
  | list items => cases items <;> exact ⟨_, _, by simp [write]; exact ⟨rfl, rfl⟩, rfl, by decide⟩
  | table entries => cases entries <;> exact ⟨_, _, by simp [write]; exact ⟨rfl, rfl⟩, rfl, by decide⟩

section

variable (charset : Charset)

mutual
/-- A value is read from what is written for it; each step of the reader takes up a character. -/
theorem readValue_write (fuel level : Nat) (rest : List Char) (v : Json) {depth : Nat}
    (h : v.isReadable depth) (hfuel : (write charset level v).length ≤ fuel) :
    readValue fuel depth (write charset level v ++ rest) = .ok (v, rest) := by
  obtain ⟨first, others, hwrite, -, -⟩ := exists_write_eq_cons charset level h
  obtain ⟨fuel, rfl⟩ : ∃ n, fuel = n + 1 := by
    rw [hwrite, List.length_cons] at hfuel
    exact ⟨fuel - 1, by omega⟩
  match v with
  | .null => rfl
  | .bool true => rfl
  | .bool false => rfl
  | .number n => simp [isReadable] at h
  | .text s =>
    obtain ⟨body, hbody, hread⟩ := readText_writeText charset s rest
    simp [write, hbody, readValue, hread, Except.map]
  | .list [] =>
    obtain ⟨depth, rfl⟩ : ∃ n, depth = n + 1 := by
      simp only [isReadable, areReadable, Bool.and_true, decide_eq_true_eq] at h
      exact ⟨depth - 1, by omega⟩
    simp [write, readValue, skipGap, isGap]
  | .list (item :: items) =>
    simp only [isReadable, areReadable, Bool.and_eq_true, decide_eq_true_eq] at h
    obtain ⟨depth, rfl⟩ : ∃ n, depth = n + 1 := ⟨depth - 1, by omega⟩
    obtain ⟨c, cs, hitem, hgap, hend⟩ := exists_write_eq_cons charset (level + 1) h.2.1
    have hitems := readItems_write fuel (level + 1) rest [] item items h.2.1 h.2.2
      (isGap_of_mem_newline level) (by
        simp [write, newline] at hfuel
        omega)
    rw [hitem] at hitems
    simp only [write, List.cons_append, List.append_assoc, List.nil_append, hitem, readValue,
      skipGap_append (isGap_of_mem_newline _), skipGap_cons hgap] at hitems ⊢
    simpa [hend] using hitems
  | .table entries =>
    simp only [isReadable, Bool.and_eq_true, decide_eq_true_eq] at h
    obtain ⟨depth, rfl⟩ : ∃ n, depth = n + 1 := ⟨depth - 1, by omega⟩
    have htable := readValue_writeTable fuel level rest entries h.2 hfuel
    rwa [Table.ofList_eq_self h.1.2] at htable
termination_by (fuel, 0)

/-- Of a table that is written with a key twice, the last value is read. -/
theorem readValue_writeTable (fuel level : Nat) (rest : List Char) (entries : List (Utf16 × Json))
    {depth : Nat} (h : entriesAreReadable depth entries)
    (hfuel : (write charset level (.table entries)).length ≤ fuel + 1) :
    readValue (fuel + 1) (depth + 1) (write charset level (.table entries) ++ rest) =
      .ok (.table (Table.ofList entries), rest) := by
  match entries with
  | [] => simp [write, readValue, skipGap, isGap, Table.ofList, Table.update]
  | (key, value) :: entries =>
    simp only [entriesAreReadable, Bool.and_eq_true] at h
    have hentries := readEntries_write fuel (level + 1) rest [] key value entries h.1 h.2
      (isGap_of_mem_newline level) (by
        simp [write, newline] at hfuel
        omega)
    obtain ⟨body, hkey, -⟩ := readText_writeText charset key (':' :: ' ' ::
      (write charset (level + 1) value ++ (writeEntries charset (level + 1) entries ++
        (newline level ++ '}' :: rest))))
    rw [hkey] at hentries
    simp only [write, List.cons_append, List.append_assoc, List.nil_append, hkey, readValue,
      skipGap_append (isGap_of_mem_newline _), skipGap_cons (c := '"') rfl]
    simpa using hentries
termination_by (fuel, 1)

theorem readItems_write (fuel level : Nat) (rest : List Char) (done : List Json) (item : Json)
    (items : List Json) {depth : Nat} (hitem : item.isReadable depth)
    (hitems : areReadable depth items) {gap : List Char} (hgap : ∀ c ∈ gap, isGap c)
    (hfuel : (write charset level item).length + (writeItems charset level items).length < fuel) :
    readItems fuel depth done (write charset level item ++ (writeItems charset level items ++
        (gap ++ ']' :: rest))) =
      .ok (.list (done.reverse ++ item :: items), rest) := by
  obtain ⟨fuel, rfl⟩ : ∃ n, fuel = n + 1 := ⟨fuel - 1, by omega⟩
  have hfirst := readValue_write fuel level (writeItems charset level items ++ (gap ++ ']' :: rest))
    item hitem (by omega)
  match items with
  | [] =>
    simp only [writeItems, List.nil_append] at hfirst ⊢
    simp [readItems, hfirst, skipGap_append hgap, skipGap_cons (c := ']') rfl]
  | next :: items =>
    simp only [areReadable, Bool.and_eq_true] at hitems
    obtain ⟨c, cs, hnext, hc, -⟩ := exists_write_eq_cons charset level hitems.1
    have hrest := readItems_write fuel level rest (item :: done) next items hitems.1 hitems.2 hgap
      (by
        simp [writeItems, newline] at hfuel
        omega)
    rw [hnext] at hrest
    simp only [writeItems, List.cons_append, List.append_assoc, hnext] at hfirst hrest ⊢
    simp only [readItems, hfirst, skipGap_cons (c := ',') rfl,
      skipGap_append (isGap_of_mem_newline _), skipGap_cons hc, hrest]
    simp
termination_by (fuel, 0)

theorem readEntries_write (fuel level : Nat) (rest : List Char) (done : List (Utf16 × Json))
    (key : Utf16) (value : Json) (entries : List (Utf16 × Json)) {depth : Nat}
    (hvalue : value.isReadable depth) (hentries : entriesAreReadable depth entries)
    {gap : List Char} (hgap : ∀ c ∈ gap, isGap c)
    (hfuel : (write charset level value).length + (writeEntries charset level entries).length <
      fuel) :
    readEntries fuel depth done (writeText charset key ++ (':' :: ' ' ::
        (write charset level value ++ (writeEntries charset level entries ++
          (gap ++ '}' :: rest))))) =
      .ok (.table (Table.ofList (done.reverse ++ (key, value) :: entries)), rest) := by
  obtain ⟨fuel, rfl⟩ : ∃ n, fuel = n + 1 := ⟨fuel - 1, by omega⟩
  obtain ⟨body, hkey, hread⟩ := readText_writeText charset key (':' :: ' ' ::
    (write charset level value ++ (writeEntries charset level entries ++ (gap ++ '}' :: rest))))
  obtain ⟨c, cs, hfirst, hc, -⟩ := exists_write_eq_cons charset level hvalue
  have hblank : skipGap (' ' :: (write charset level value ++ (writeEntries charset level entries ++
      (gap ++ '}' :: rest)))) = write charset level value ++ (writeEntries charset level entries ++
        (gap ++ '}' :: rest)) := by
    rw [hfirst, List.cons_append]
    exact (skipGap_append (by simp [isGap] : ∀ c ∈ [' '], isGap c) _).trans (skipGap_cons hc _)
  have hfound := readValue_write fuel level (writeEntries charset level entries ++ (gap ++ '}' :: rest))
    value hvalue (by omega)
  rw [hkey]
  simp only [readEntries, hread, skipGap_cons (c := ':') rfl, hblank, hfound]
  match entries with
  | [] =>
    simp [writeEntries, skipGap_append hgap, skipGap_cons (c := '}') rfl]
  | (next, other) :: entries =>
    simp only [entriesAreReadable, Bool.and_eq_true] at hentries
    have hrest := readEntries_write fuel level rest ((key, value) :: done) next other entries
      hentries.1 hentries.2 hgap (by
        simp [writeEntries, newline] at hfuel
        omega)
    obtain ⟨body, hnext, -⟩ := readText_writeText charset next (':' :: ' ' ::
      (write charset level other ++ (writeEntries charset level entries ++ (gap ++ '}' :: rest))))
    rw [hnext] at hrest
    simp only [writeEntries, List.cons_append, List.append_assoc, List.nil_append, hnext,
      skipGap_cons (c := ',') rfl, skipGap_append (isGap_of_mem_newline _),
      skipGap_cons (c := '"') rfl, hrest]
    simp
termination_by (fuel, 0)
end

end

-- ---------------------------------------------------------------------------
-- Documents
-- ---------------------------------------------------------------------------

/-- A document is what the value at its start is read as, where only a gap follows. -/
theorem parseWithin_of_readValue {depth : Nat} {text gap : List Char} {v : Json}
    (hstart : skipGap (text ++ gap) = text ++ gap) (hgap : ∀ c ∈ gap, isGap c)
    (hread : ∀ fuel, text.length ≤ fuel → readValue fuel depth (text ++ gap) = .ok (v, gap)) :
    parseWithin depth (text ++ gap) = .ok v := by
  have hend : skipGap gap = [] := by
    simpa [skipGap] using skipGap_append hgap []
  have hvalue := hread (enoughFuel (text ++ gap)) (by
    simp [enoughFuel]
    omega)
  simp [parseWithin, hstart, hvalue, hend, bind, Except.bind, pure, Except.pure]

/-- A document is read from its text, whatever gap follows it. -/
theorem parseWithin_write (charset : Charset) (level : Nat) {depth : Nat} {v : Json}
    (h : v.isReadable depth) {gap : List Char} (hgap : ∀ c ∈ gap, isGap c) :
    parseWithin depth (write charset level v ++ gap) = .ok v := by
  obtain ⟨c, cs, hwrite, hc, -⟩ := exists_write_eq_cons charset level h
  have hstart : skipGap (write charset level v ++ gap) = write charset level v ++ gap := by
    rw [hwrite, List.cons_append, skipGap_cons hc]
  exact parseWithin_of_readValue hstart hgap fun fuel => readValue_write charset fuel level gap v h

/-- A document that is written with a key twice is read with its last value. -/
theorem parseWithin_writeTable (charset : Charset) (level : Nat) {depth : Nat}
    {entries : List (Utf16 × Json)} (h : entriesAreReadable depth entries) {gap : List Char}
    (hgap : ∀ c ∈ gap, isGap c) :
    parseWithin (depth + 1) (write charset level (.table entries) ++ gap) =
      .ok (.table (Table.ofList entries)) := by
  obtain ⟨cs, hwrite⟩ : ∃ cs, write charset level (.table entries) = '{' :: cs := by
    cases entries <;> exact ⟨_, by simp [write]; rfl⟩
  have hstart : skipGap (write charset level (.table entries) ++ gap) =
      write charset level (.table entries) ++ gap := by
    rw [hwrite, List.cons_append, skipGap_cons rfl]
  refine parseWithin_of_readValue hstart hgap ?_
  intro fuel hfuel
  obtain ⟨fuel, rfl⟩ : ∃ n, fuel = n + 1 := by
    rw [hwrite, List.length_cons] at hfuel
    exact ⟨fuel - 1, by omega⟩
  exact readValue_writeTable charset fuel level gap entries h hfuel

mutual
theorem checkNumbers_ok (v : Json) {depth : Nat} (h : v.isReadable depth) :
    v.checkNumbers = .ok () := by
  match v with
  | .null | .bool _ | .text _ => rfl
  | .number n => simp [isReadable] at h
  | .list items =>
    simp only [isReadable, Bool.and_eq_true] at h
    exact checkItems_ok items h.2
  | .table entries =>
    simp only [isReadable, Bool.and_eq_true] at h
    exact checkEntries_ok entries h.2

theorem checkItems_ok (items : List Json) {depth : Nat} (h : areReadable depth items) :
    checkItems items = .ok () := by
  match items with
  | [] => rfl
  | item :: items =>
    simp only [areReadable, Bool.and_eq_true] at h
    simp only [checkItems, checkNumbers_ok item h.1, checkItems_ok items h.2]
    rfl

theorem checkEntries_ok (entries : List (Utf16 × Json)) {depth : Nat}
    (h : entriesAreReadable depth entries) : checkEntries entries = .ok () := by
  match entries with
  | [] => rfl
  | (key, value) :: entries =>
    simp only [entriesAreReadable, Bool.and_eq_true] at h
    simp only [checkEntries, checkNumbers_ok value h.1, checkEntries_ok entries h.2]
    rfl
end

/-- A readable value has a text as a document. -/
theorem document_eq_ok (charset : Charset) {depth : Nat} {v : Json} (h : v.isReadable depth) :
    document charset v = .ok (String.ofList (write charset 0 v)) := by
  simp [document, checkNumbers_ok v h, bind, Except.bind, pure, Except.pure]

-- ---------------------------------------------------------------------------
-- Items and entries one by one
-- ---------------------------------------------------------------------------

@[simp] theorem areReadable_iff {depth : Nat} {items : List Json} :
    areReadable depth items ↔ ∀ item ∈ items, item.isReadable depth := by
  induction items with
  | nil => simp [areReadable]
  | cons item items ih => simp [areReadable, ih]

@[simp] theorem entriesAreReadable_iff {depth : Nat} {entries : List (Utf16 × Json)} :
    entriesAreReadable depth entries ↔ ∀ entry ∈ entries, entry.2.isReadable depth := by
  induction entries with
  | nil => simp [entriesAreReadable]
  | cons entry entries ih => simp [entriesAreReadable, ih]

-- ---------------------------------------------------------------------------
-- Carriage returns
-- ---------------------------------------------------------------------------

theorem return_not_mem_hexDigits (width n : Nat) : '\r' ∉ hexDigits width n := by
  have hdigit : ∀ d < 16, '\r' ≠ hexDigit d := by decide
  induction width generalizing n with
  | zero => simp [hexDigits]
  | succ width ih => simp [hexDigits, ih, hdigit (n % 16) (Nat.mod_lt n (by decide))]

theorem return_not_mem_escapeChar (charset : Charset) (c : Char) :
    '\r' ∉ escapeChar charset c := by
  unfold escapeChar
  split
  · next escape hescape =>
    unfold shortEscape? at hescape
    split at hescape <;> cases hescape <;> simp
  · next hescape =>
    split
    · have hreturn : '\r' ≠ c := by rintro rfl; cases hescape
      simpa using hreturn
    · simp [codeEscape, unicodeEscape, return_not_mem_hexDigits]

theorem return_not_mem_writeText (charset : Charset) (text : Utf16) :
    '\r' ∉ writeText charset text := by
  have hglyph : ∀ glyph, '\r' ∉ escapeGlyph charset glyph := by
    intro glyph
    cases glyph with
    | char c => exact return_not_mem_escapeChar charset c
    | half unit => simp [escapeGlyph, unicodeEscape, return_not_mem_hexDigits]
  simp [writeText, hglyph]

theorem return_not_mem_newline (level : Nat) : '\r' ∉ newline level := by
  simp [newline]

section

variable (charset : Charset)

mutual
/-- A written value has no carriage return, so reading its file changes no line break. -/
theorem return_not_mem_write (level : Nat) (v : Json) {depth : Nat} (h : v.isReadable depth) :
    '\r' ∉ write charset level v := by
  match v with
  | .null => simp [write]
  | .bool true => simp [write]
  | .bool false => simp [write]
  | .number n => simp [isReadable] at h
  | .text s => simpa [write] using return_not_mem_writeText charset s
  | .list [] => simp [write]
  | .list (item :: items) =>
    simp only [isReadable, areReadable, Bool.and_eq_true] at h
    simp [write, return_not_mem_newline, return_not_mem_write (level + 1) item h.2.1,
      return_not_mem_writeItems (level + 1) items h.2.2]
  | .table [] => simp [write]
  | .table ((key, value) :: entries) =>
    simp only [isReadable, entriesAreReadable, Bool.and_eq_true] at h
    simp [write, return_not_mem_newline, return_not_mem_writeText,
      return_not_mem_write (level + 1) value h.2.1,
      return_not_mem_writeEntries (level + 1) entries h.2.2]

theorem return_not_mem_writeItems (level : Nat) (items : List Json) {depth : Nat}
    (h : areReadable depth items) : '\r' ∉ writeItems charset level items := by
  match items with
  | [] => simp [writeItems]
  | item :: items =>
    simp only [areReadable, Bool.and_eq_true] at h
    simp [writeItems, return_not_mem_newline, return_not_mem_write level item h.1,
      return_not_mem_writeItems level items h.2]

theorem return_not_mem_writeEntries (level : Nat) (entries : List (Utf16 × Json)) {depth : Nat}
    (h : entriesAreReadable depth entries) : '\r' ∉ writeEntries charset level entries := by
  match entries with
  | [] => simp [writeEntries]
  | (key, value) :: entries =>
    simp only [entriesAreReadable, Bool.and_eq_true] at h
    simp [writeEntries, return_not_mem_newline, return_not_mem_writeText,
      return_not_mem_write level value h.1, return_not_mem_writeEntries level entries h.2]
end

end

end FlakeLint.Json
