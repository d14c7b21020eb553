-- SUMMARY: Literals of whole numbers in four notations, and what is read from them.
import FlakeLint.Syntax.Call
import Mathlib.Data.List.Basic
import Mathlib.Data.List.Induction
import Mathlib.Data.List.TakeWhile
import Mathlib.Tactic.IntervalCases

/-!
# Literals of whole numbers

A whole number is written in decimal without leading zeros, or in base 16, 8 or 2 behind
a prefix, with letters of either case and underscores between digits. Whichever way it is
written, it is read back; with an `n` behind it, the literal has no value.
-/

namespace FlakeLint

namespace Text

theorem stripBy_eq_self {α : Type} {p : α → Bool} {xs : List α} (h : ∀ x ∈ xs, p x = false) :
    stripBy p xs = xs := by
  have hdrop {ys : List α} (hys : ∀ y ∈ ys, p y = false) : ys.dropWhile p = ys := by
    cases ys with
    | nil => rfl
    | cons y ys => exact List.dropWhile_cons_of_neg (by simp [hys y List.mem_cons_self])
  unfold stripBy
  rw [hdrop h, hdrop (by simpa using h), List.reverse_reverse]

end Text

namespace Numeral

open FlakeLint.Text

-- ---------------------------------------------------------------------------
-- Written literals
-- ---------------------------------------------------------------------------

/-- The text consists of the digits, with any number of underscores between two of them. -/
inductive Separates : List Char → List Char → Prop where
  | single (c : Char) : Separates [c] [c]
  | cons (c : Char) (gap : Nat) {digits text : List Char} :
    Separates digits text → Separates (c :: digits) (c :: (List.replicate gap '_' ++ text))

/-- The notations with a prefix. -/
inductive Radix where
  | hexadecimal
  | octal
  | binary
deriving DecidableEq, Repr

def Radix.base : Radix → Nat
  | .hexadecimal => 16
  | .octal => 8
  | .binary => 2

/-- The letters of the prefix, small and capital. -/
def Radix.letters : Radix → List Char
  | .hexadecimal => ['x', 'X']
  | .octal => ['o', 'O']
  | .binary => ['b', 'B']

/-- The text is a literal of the number. -/
inductive Writes (n : Nat) : String → Prop where
  | decimal {text : List Char} :
    (Nat.toDigits 10 n).length ≤ 4300 → Separates (Nat.toDigits 10 n) text →
    Writes n (String.ofList text)
  | prefixed (radix : Radix) (zeros : Nat) {letter : Char} {digits text : List Char} :
    letter ∈ radix.letters →
    digits.map Char.toLower = List.replicate zeros '0' ++ Nat.toDigits radix.base n →
    Separates digits text → Writes n (String.ofList ('0' :: letter :: text))

-- ---------------------------------------------------------------------------
-- Characters of literals
-- ---------------------------------------------------------------------------

/-- The character is a digit of some base: an ASCII digit or letter. -/
def IsBaseDigit (c : Char) : Prop :=
  (baseDigit? c).isSome = true

instance (c : Char) : Decidable (IsBaseDigit c) :=
  inferInstanceAs (Decidable (_ = true))

theorem toNat_of_isBaseDigit {c : Char} (h : IsBaseDigit c) :
    0x30 ≤ c.toNat ∧ c.toNat ≤ 0x7A ∧ c.toNat ≠ 0x5F := by
  have hle (a b : Char) : a ≤ b ↔ a.toNat ≤ b.toNat := by
    rw [Char.le_def, UInt32.le_iff_toNat_le]
    rfl
  unfold IsBaseDigit baseDigit? at h
  simp only [Char.isDigit_iff_toNat, Bool.and_eq_true, decide_eq_true_eq, hle,
    Char.reduceToNat] at h
  split at h
  · omega
  · split at h
    · omega
    · split at h
      · omega
      · cases h

theorem ne_underscore_of_isBaseDigit {c : Char} (h : IsBaseDigit c) : c ≠ '_' := by
  rintro rfl
  exact (toNat_of_isBaseDigit h).2.2 rfl

theorem plainChar_of_isBaseDigit {c : Char} (h : IsBaseDigit c) : plainChar c = c := by
  have hrange := toNat_of_isBaseDigit h
  exact if_pos (by omega)

theorem isMargin_of_isBaseDigit {c : Char} (h : IsBaseDigit c) : isMargin c = false := by
  have hrange := toNat_of_isBaseDigit h
  have hblank : c ≠ ' ' := by
    rintro rfl
    exact absurd hrange.1 (by decide)
  simp [isMargin, hblank]
  omega

theorem isBaseDigit_of_isDigit {c : Char} (h : c.isDigit = true) : IsBaseDigit c := by
  simp [IsBaseDigit, baseDigit?, h]

theorem baseDigit?_digitChar {d : Nat} (h : d < 16) : baseDigit? d.digitChar = some d := by
  revert h d
  decide

theorem toLower_eq_self {c : Char} (h : ¬ (0x41 ≤ c.toNat ∧ c.toNat ≤ 0x5A)) : c.toLower = c := by
  unfold Char.toLower
  exact dif_neg fun hcapital => h ⟨hcapital.1, hcapital.2⟩

theorem baseDigit?_toLower (c : Char) : baseDigit? c.toLower = baseDigit? c := by
  by_cases h : 0x41 ≤ c.toNat ∧ c.toNat ≤ 0x5A
  · obtain ⟨hlow, hhigh⟩ := h
    rw [← Char.ofNat_toNat c]
    generalize c.toNat = n at hlow hhigh
    interval_cases n <;> rfl
  · rw [toLower_eq_self h]

-- ---------------------------------------------------------------------------
-- Values of digits
-- ---------------------------------------------------------------------------

variable {base n : Nat}

theorem ofDigits?_append_singleton (base : Nat) (cs : List Char) (c : Char) :
    ofDigits? base (cs ++ [c]) = (ofDigits? base cs).bind fun value =>
      (baseDigit? c).bind fun d => if d < base then some (value * base + d) else none := by
  unfold ofDigits?
  rw [List.foldlM_append]
  cases List.foldlM (m := Option) _ 0 cs with
  | none => rfl
  | some value => simp

theorem ofDigits?_map_toLower (base : Nat) (cs : List Char) :
    ofDigits? base (cs.map Char.toLower) = ofDigits? base cs := by
  unfold ofDigits?
  rw [List.foldlM_map]
  simp only [baseDigit?_toLower]

theorem ofDigits?_zeros_append (hbase : 0 < base) (zeros : Nat) (cs : List Char) :
    ofDigits? base (List.replicate zeros '0' ++ cs) = ofDigits? base cs := by
  induction zeros with
  | zero => rfl
  | succ zeros ih =>
    have hzero : (baseDigit? '0').bind (fun d =>
        if d < base then some (0 * base + d) else none) = some 0 := by
      simp [show baseDigit? '0' = some 0 from rfl, hbase]
    unfold ofDigits? at ih ⊢
    rw [List.replicate_succ, List.cons_append, List.foldlM_cons, hzero]
    exact ih

theorem ofDigits?_toDigits (hlow : 1 < base) (hhigh : base ≤ 16) (n : Nat) :
    ofDigits? base (Nat.toDigits base n) = some n := by
  induction n using Nat.strongRecOn with
  | ind n ih =>
    have hlast : baseDigit? (n % base).digitChar = some (n % base) :=
      baseDigit?_digitChar (Nat.lt_of_lt_of_le (Nat.mod_lt n (by omega)) hhigh)
    have hsmall : n % base < base := Nat.mod_lt n (by omega)
    rw [Nat.toDigits_eq_if hlow]
    split
    · next hlt =>
      rw [Nat.mod_eq_of_lt hlt] at hlast
      simp [ofDigits?, hlast, hlt]
    · next hle =>
      have hrest := ih (n / base) (Nat.div_lt_self (by omega) hlow)
      rw [ofDigits?_append_singleton, hrest, Option.bind_some, hlast, Option.bind_some,
        if_pos hsmall, Nat.div_add_mod']

/-- The value of digits of either case, behind any number of zeros. -/
theorem ofDigits?_of_map_toLower (hlow : 1 < base) (hhigh : base ≤ 16) {digits : List Char}
    {zeros : Nat}
    (h : digits.map Char.toLower = List.replicate zeros '0' ++ Nat.toDigits base n) :
    ofDigits? base digits = some n := by
  rw [← ofDigits?_map_toLower, h, ofDigits?_zeros_append (by omega), ofDigits?_toDigits hlow hhigh]

theorem ofDigits?_append_n (hhigh : base ≤ 16) (cs : List Char) :
    ofDigits? base (cs ++ ['n']) = none := by
  have hn : baseDigit? 'n' = some 23 := rfl
  rw [ofDigits?_append_singleton, hn]
  cases ofDigits? base cs with
  | none => rfl
  | some value => exact if_neg (by omega)

theorem isBaseDigit_of_ofDigits? {cs : List Char} {value : Nat}
    (h : ofDigits? base cs = some value) : ∀ c ∈ cs, IsBaseDigit c := by
  induction cs using List.reverseRecOn generalizing value with
  | nil => simp
  | append_singleton cs last ih =>
    rw [ofDigits?_append_singleton] at h
    obtain ⟨front, hfront, hlast⟩ := Option.bind_eq_some_iff.1 h
    obtain ⟨d, hd, -⟩ := Option.bind_eq_some_iff.1 hlast
    intro c hc
    rcases List.mem_append.1 hc with hc | hc
    · exact ih hfront c hc
    · rw [List.mem_singleton.1 hc]
      exact Option.isSome_of_eq_some hd

/-- Only zero is written with a zero in front. -/
theorem head?_toDigits_ne (hlow : 1 < base) (hhigh : base ≤ 16) (hn : n ≠ 0) :
    (Nat.toDigits base n).head? ≠ some '0' := by
  have hchar : ∀ d < 16, d ≠ 0 → d.digitChar ≠ '0' := by decide
  induction n using Nat.strongRecOn with
  | ind n ih =>
    rw [Nat.toDigits_eq_if hlow]
    split
    · next hlt => simpa using hchar n (by omega) hn
    · next hle =>
      have hpos : n / base ≠ 0 := (Nat.div_pos (by omega) (by omega)).ne'
      rw [List.head?_append_of_ne_nil _ Nat.toDigits_ne_nil]
      exact ih (n / base) (Nat.div_lt_self (by omega) hlow) hpos

-- ---------------------------------------------------------------------------
-- Separators and margins
-- ---------------------------------------------------------------------------

theorem Separates.filter {digits text : List Char} (h : Separates digits text)
    (hdigits : ∀ c ∈ digits, IsBaseDigit c) : text.filter (· != '_') = digits := by
  induction h with
  | single c =>
    have hc := ne_underscore_of_isBaseDigit (hdigits c (by simp))
    simp [hc]
  | cons c gap _ ih =>
    have hc := ne_underscore_of_isBaseDigit (hdigits c (by simp))
    simp [hc, ih fun d hd => hdigits d (List.mem_cons_of_mem c hd)]

theorem Separates.refl {digits : List Char} (h : digits ≠ []) : Separates digits digits := by
  induction digits with
  | nil => exact absurd rfl h
  | cons c digits ih =>
    cases digits with
    | nil => exact .single c
    | cons d digits => exact .cons c 0 (ih (by simp))

theorem Separates.ne_nil {digits text : List Char} (h : Separates digits text) : digits ≠ [] := by
  cases h <;> simp

theorem normalize_eq_self {cs : List Char} (h : ∀ c ∈ cs, IsBaseDigit c) : normalize cs = cs := by
  unfold normalize
  rw [List.map_congr_left fun c hc => plainChar_of_isBaseDigit (h c hc), List.map_id',
    stripBy_eq_self fun c hc => isMargin_of_isBaseDigit (h c hc)]

theorem splitSign_eq_self {cs : List Char} (h : ∀ c ∈ cs, IsBaseDigit c) :
    splitSign cs = (false, cs) := by
  unfold splitSign
  split
  · exact absurd (h '-' (by simp)) (by decide)
  · exact absurd (h '+' (by simp)) (by decide)
  · rfl

-- ---------------------------------------------------------------------------
-- Whole numbers
-- ---------------------------------------------------------------------------

theorem whole?_prefixed {radix : Radix} {letter : Char} {digits : List Char}
    (hletter : letter ∈ radix.letters) (hdigits : digits ≠ []) :
    whole? ('0' :: letter :: digits) = (ofDigits? radix.base digits).map fun n => (n : Int) := by
  have hnonempty : digits.isEmpty = false := by simpa using hdigits
  cases radix <;>
  · simp only [Radix.letters, List.mem_cons, List.not_mem_nil, or_false] at hletter
    rcases hletter with rfl | rfl <;>
    simp [whole?, splitSign, splitBase, Radix.base, hnonempty]

theorem splitBase_eq_self {cs : List Char} (h : ∀ radix : Radix, ∀ c ∈ radix.letters, c ∉ cs) :
    splitBase cs = (10, cs) := by
  unfold splitBase
  split
  · next c cs =>
    have hc : ∀ radix : Radix, c ∉ radix.letters := fun radix hmem => h radix c hmem (by simp)
    have hx : c ≠ 'x' ∧ c ≠ 'X' := by simpa [Radix.letters] using hc .hexadecimal
    have ho : c ≠ 'o' ∧ c ≠ 'O' := by simpa [Radix.letters] using hc .octal
    have hb : c ≠ 'b' ∧ c ≠ 'B' := by simpa [Radix.letters] using hc .binary
    simp [hx, ho, hb]
  · rfl

/-- A letter of a prefix is no decimal digit, and no ending of a numeral either. -/
theorem ne_of_mem_letters {radix : Radix} {c : Char} (h : c ∈ radix.letters) :
    IsBaseDigit c ∧ c.isDigit = false ∧ c ≠ 'n' ∧ c ≠ '.' ∧ c ≠ 'e' ∧ c ≠ 'E' := by
  cases radix <;>
  · simp only [Radix.letters, List.mem_cons, List.not_mem_nil, or_false] at h
    rcases h with rfl | rfl <;> decide

theorem plainWhole?_toDigits (h : (Nat.toDigits 10 n).length ≤ digitLimit) :
    plainWhole? (Nat.toDigits 10 n) = some n := by
  have hzero : ((Nat.toDigits 10 n).head? == some '0' && (Nat.toDigits 10 n).any (· != '0')) =
      false := by
    by_cases hn : n = 0
    · subst hn
      rfl
    · have hhead := head?_toDigits_ne (by decide : 1 < 10) (by decide) hn
      simp [hhead]
  unfold plainWhole?
  rw [if_neg (Nat.not_lt.2 h), hzero, if_neg Bool.false_ne_true,
    ofDigits?_toDigits (by decide) (by decide)]

theorem plainWhole?_append_n (cs : List Char) : plainWhole? (cs ++ ['n']) = none := by
  unfold plainWhole?
  split
  · rfl
  · split
    · rfl
    · exact ofDigits?_append_n (by decide) cs

/-- A numeral without a prefix is read in base ten. -/
theorem whole?_eq_plainWhole? {cs : List Char} (hne : cs ≠ [])
    (hdigits : ∀ c ∈ cs, c.isDigit = true ∨ c = 'n') :
    whole? cs = (plainWhole? cs).map fun n => (n : Int) := by
  have hbase : ∀ c ∈ cs, IsBaseDigit c := by
    intro c hc
    rcases hdigits c hc with hdigit | rfl
    · exact isBaseDigit_of_isDigit hdigit
    · decide
  have hplain : ∀ radix : Radix, ∀ c ∈ radix.letters, c ∉ cs := by
    intro radix c hletter hc
    have hother := ne_of_mem_letters hletter
    rcases hdigits c hc with hdigit | hn
    · exact absurd hdigit (by simp [hother])
    · exact hother.2.2.1 hn
  have hnonempty : cs.isEmpty = false := by simpa using hne
  unfold whole?
  simp [splitSign_eq_self hbase, splitBase_eq_self hplain, hnonempty]

-- ---------------------------------------------------------------------------
-- Fractions
-- ---------------------------------------------------------------------------

/-- The words begin with letters. -/
theorem word?_eq_none {c : Char} (hc : c.isDigit = true) (negative : Bool) (cs : List Char) :
    word? negative (c :: cs) = none := by
  have hrange : 48 ≤ c.toNat ∧ c.toNat ≤ 57 := by
    simpa [Char.isDigit_iff_toNat] using hc
  have hother (d : Char) (ds : List Char) (hd : 57 < d.toNat) :
      (String.ofList ((c :: cs).map Char.toLower) == String.ofList (d :: ds)) = false := by
    rw [List.map_cons, toLower_eq_self (by omega), beq_eq_false_iff_ne, ne_eq, String.ofList_inj]
    intro h
    have hhead : c = d := (List.cons.inj h).1
    subst hhead
    omega
  unfold word?
  dsimp only
  rw [show "inf" = String.ofList ['i', 'n', 'f'] from rfl,
    show "infinity" = String.ofList ['i', 'n', 'f', 'i', 'n', 'i', 't', 'y'] from rfl,
    show "nan" = String.ofList ['n', 'a', 'n'] from rfl,
    hother 'i' _ (by decide), hother 'i' _ (by decide), hother 'n' _ (by decide)]
  rfl

/-- Digits followed by a character other than a point or an exponent are no fraction. -/
theorem fraction?_eq_none {d c : Char} {digits rest : List Char}
    (hdigits : ∀ d' ∈ d :: digits, d'.isDigit = true) (hc : c.isDigit = false)
    (hpoint : c ≠ '.') (hsmall : c ≠ 'e') (hcapital : c ≠ 'E') :
    fraction? ((d :: digits) ++ c :: rest) = none := by
  have hd : d.isDigit = true := hdigits d List.mem_cons_self
  have hsign : splitSign ((d :: digits) ++ c :: rest) = (false, (d :: digits) ++ c :: rest) := by
    unfold splitSign
    split <;> simp_all
  have hdecimal : decimal? false ((d :: digits) ++ c :: rest) = none := by
    have hwhole : ((d :: digits) ++ c :: rest).takeWhile Char.isDigit = d :: digits := by
      rw [List.takeWhile_append_of_pos hdigits, List.takeWhile_cons_of_neg (by simp [hc]),
        List.append_nil]
    have hrest : ((d :: digits) ++ c :: rest).dropWhile Char.isDigit = c :: rest := by
      rw [List.dropWhile_append_of_pos hdigits, List.dropWhile_cons_of_neg (by simp [hc])]
    have hexponent : exponent? (c :: rest) = none := by simp [exponent?, hsmall, hcapital]
    unfold decimal?
    simp only [hwhole, hrest]
    simp [hpoint, hexponent]
  have hword : word? false ((d :: digits) ++ c :: rest) = none := word?_eq_none hd false _
  unfold fraction?
  simp only [hsign, hdecimal, hword, Option.or_none]

-- ---------------------------------------------------------------------------
-- Literals
-- ---------------------------------------------------------------------------

theorem value?_eq {text : String} (h : ∀ c ∈ text.toList.filter (· != '_'), IsBaseDigit c) :
    value? text =
      ((whole? (text.toList.filter (· != '_'))).map Number.int).or
        ((fraction? (text.toList.filter (· != '_'))).map Number.ofDouble) := by
  unfold value?
  simp only [normalize_eq_self h]
  cases whole? (text.toList.filter (· != '_')) <;> rfl

/-- What a literal is without its underscores, in decimal or behind a prefix. -/
theorem Writes.cases_filter {text : String} (h : Writes n text) :
    (text.toList.filter (· != '_') = Nat.toDigits 10 n ∧
      (Nat.toDigits 10 n).length ≤ digitLimit) ∨
    ∃ radix : Radix, ∃ letter ∈ radix.letters, ∃ digits ≠ [],
      text.toList.filter (· != '_') = '0' :: letter :: digits ∧
      ofDigits? radix.base digits = some n := by
  cases h with
  | decimal hlength hseparates =>
    left
    refine ⟨?_, hlength⟩
    rw [String.toList_ofList]
    exact hseparates.filter (isBaseDigit_of_ofDigits? (ofDigits?_toDigits (by decide) (by decide) n))
  | prefixed radix zeros hletter hdigits hseparates =>
    right
    have hbase : 1 < radix.base ∧ radix.base ≤ 16 := by cases radix <;> decide
    have hvalue := ofDigits?_of_map_toLower hbase.1 hbase.2 hdigits
    refine ⟨radix, _, hletter, _, hseparates.ne_nil, ?_, hvalue⟩
    have hplain := ne_underscore_of_isBaseDigit (ne_of_mem_letters hletter).1
    simp [hseparates.filter (isBaseDigit_of_ofDigits? hvalue), hplain]

theorem Writes.isBaseDigit {text : String} (h : Writes n text) :
    ∀ c ∈ text.toList.filter (· != '_'), IsBaseDigit c := by
  rcases h.cases_filter with ⟨htext, -⟩ | ⟨radix, letter, hletter, digits, -, htext, hvalue⟩
  · rw [htext]
    exact isBaseDigit_of_ofDigits? (ofDigits?_toDigits (by decide) (by decide : 10 ≤ 16) n)
  · rw [htext]
    simpa using ⟨by decide, (ne_of_mem_letters hletter).1, isBaseDigit_of_ofDigits? hvalue⟩

theorem value?_of_writes {text : String} (h : Writes n text) : value? text = some (.int n) := by
  rw [value?_eq h.isBaseDigit]
  rcases h.cases_filter with ⟨htext, hlength⟩ | ⟨radix, letter, hletter, digits, hne, htext, hvalue⟩
  · have hdigits : ∀ c ∈ Nat.toDigits 10 n, c.isDigit = true ∨ c = 'n' := fun c hc =>
      .inl (Nat.isDigit_of_mem_toDigits (by decide) (by decide) hc)
    rw [htext, whole?_eq_plainWhole? Nat.toDigits_ne_nil hdigits, plainWhole?_toDigits hlength]
    rfl
  · rw [htext, whole?_prefixed hletter hne, hvalue]
    rfl

theorem isBaseDigit_append_n {cs : List Char} (h : ∀ c ∈ cs, IsBaseDigit c) :
    ∀ c ∈ cs ++ ['n'], IsBaseDigit c :=
  List.forall_mem_append.2 ⟨h, List.forall_mem_singleton.2 (by decide)⟩

/-- With the suffix, a decimal literal is neither a whole number nor a fraction. -/
theorem toDigits_suffixed (n : Nat) :
    whole? (Nat.toDigits 10 n ++ ['n']) = none ∧ fraction? (Nat.toDigits 10 n ++ ['n']) = none := by
  have hdigit : ∀ c ∈ Nat.toDigits 10 n, c.isDigit = true := fun c =>
    Nat.isDigit_of_mem_toDigits (by decide) (by decide)
  constructor
  · have hdigits : ∀ c ∈ Nat.toDigits 10 n ++ ['n'], c.isDigit = true ∨ c = 'n' :=
      List.forall_mem_append.2
        ⟨fun c hc => .inl (hdigit c hc), List.forall_mem_singleton.2 (.inr rfl)⟩
    rw [whole?_eq_plainWhole? (by simp) hdigits, plainWhole?_append_n]
    rfl
  · obtain ⟨d, ds, hds⟩ := List.exists_cons_of_ne_nil (Nat.toDigits_ne_nil (b := 10) (n := n))
    rw [hds] at hdigit ⊢
    exact fraction?_eq_none hdigit (by decide) (by decide) (by decide) (by decide)

/-- Nor is a literal with a prefix. -/
theorem prefixed_suffixed {radix : Radix} {letter : Char} (hletter : letter ∈ radix.letters)
    (digits : List Char) :
    whole? ('0' :: letter :: (digits ++ ['n'])) = none ∧
      fraction? ('0' :: letter :: (digits ++ ['n'])) = none := by
  constructor
  · have hbase : radix.base ≤ 16 := by cases radix <;> decide
    rw [whole?_prefixed hletter (by simp), ofDigits?_append_n hbase]
    rfl
  · obtain ⟨-, hdigit, -, hpoint, hsmall, hcapital⟩ := ne_of_mem_letters hletter
    have hzero : ∀ d ∈ ['0'], d.isDigit = true := List.forall_mem_singleton.2 rfl
    exact fraction?_eq_none hzero hdigit hpoint hsmall hcapital

theorem value?_suffixed {text : String} (h : Writes n text) : value? (text ++ "n") = none := by
  have hfilter : (text ++ "n").toList.filter (· != '_') =
      text.toList.filter (· != '_') ++ ['n'] := by
    simp
  have hdigits := isBaseDigit_append_n h.isBaseDigit
  rw [← hfilter] at hdigits
  rw [value?_eq hdigits, hfilter]
  rcases h.cases_filter with ⟨htext, -⟩ | ⟨radix, letter, hletter, digits, -, htext, -⟩
  · obtain ⟨hwhole, hfraction⟩ := toDigits_suffixed n
    rw [htext, hwhole, hfraction]
    rfl
  · obtain ⟨hwhole, hfraction⟩ := prefixed_suffixed hletter digits
    rw [htext, List.cons_append, List.cons_append, hwhole, hfraction]
    rfl

end Numeral

namespace Node

/-- A number node has the number that its text writes, and none if the suffix `n` follows. -/
theorem numberValue?_of_writes {n : Nat} {text : String} (h : Numeral.Writes n text) :
    (∀ node : Node, node.kind = .number → node.text = text →
      node.numberValue? = some (.int n)) ∧
    (∀ node : Node, node.kind = .number → node.text = text ++ "n" →
      node.numberValue? = none) := by
  constructor
  · intro node hkind htext
    rw [numberValue?, if_pos hkind, htext, Numeral.value?_of_writes h]
  · intro node hkind htext
    rw [numberValue?, if_pos hkind, htext, Numeral.value?_suffixed h]

/-- A number node of the given text. -/
def ofLiteral (text : String) : Node :=
  .mk ⟨.number, true, false, false, none, text, none⟩ []

theorem numberValue?_hexadecimal :
    Numeral.Writes 255 "0X00_fF" ∧
    (ofLiteral "0X00_fF").numberValue? = some (.int 255) ∧
    (ofLiteral "0X00_fFn").numberValue? = none := by
  have hseparates : Numeral.Separates ['0', '0', 'f', 'F'] ['0', '0', '_', 'f', 'F'] :=
    .cons '0' 0 (.cons '0' 1 (.cons 'f' 0 (.single 'F')))
  have hdigits : ['0', '0', 'f', 'F'].map Char.toLower =
      List.replicate 2 '0' ++ Nat.toDigits Numeral.Radix.hexadecimal.base 255 := by
    decide
  have hletter : 'X' ∈ Numeral.Radix.hexadecimal.letters := by decide
  have hwrites : Numeral.Writes 255 "0X00_fF" := .prefixed .hexadecimal 2 hletter hdigits hseparates
  obtain ⟨hvalue, hsuffixed⟩ := numberValue?_of_writes hwrites
  exact ⟨hwrites, hvalue (ofLiteral "0X00_fF") rfl rfl, hsuffixed (ofLiteral "0X00_fFn") rfl rfl⟩

end Node

end FlakeLint
