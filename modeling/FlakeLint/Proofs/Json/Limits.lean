-- SUMMARY: What a text must hold for the JSON reader to go beyond a limit.
import FlakeLint.Json.Reader
import FlakeLint.Proofs.Text.Words
import Mathlib.Data.List.TakeWhile

/-!
# Limits of the reader

Malformed texts apart, the reader refuses two things: a whole number with too many
digits, and lists and tables that nest too deeply. Either can be seen in the text:
there is the run of digits, or there are as many opening brackets.
-/

namespace FlakeLint.Json

open FlakeLint.Text

-- ---------------------------------------------------------------------------
-- Reasons in the text
-- ---------------------------------------------------------------------------

def isBracket (c : Char) : Bool :=
  c == '[' || c == '{'

/-- A part of a text that is a numeral longer than any number is read. -/
structure IsLongNumeral (digits cs : List Char) : Prop where
  isPart : digits <:+: cs
  areDigits : ∀ c ∈ digits, c.isDigit
  isLong : digitLimit < digits.length

/-- The refusal of a reader that may go `depth` levels deep has its reason in the text. -/
def Refusal.IsDue (depth : Nat) (cs : List Char) : Refusal → Prop
  | .malformed => True
  | .tooDeep _ => depth < cs.countP isBracket
  | .tooLong n => ∃ digits, IsLongNumeral digits cs ∧ digits.length = n

namespace Refusal.IsDue

variable {refusal : Refusal} {depth : Nat} {cs rest : List Char}

theorem of_suffix (h : refusal.IsDue depth rest) (hrest : rest <:+ cs) :
    refusal.IsDue depth cs := by
  cases refusal with
  | malformed => trivial
  | tooDeep nest => exact Nat.lt_of_lt_of_le h hrest.sublist.countP_le
  | tooLong n =>
    obtain ⟨digits, hnumeral, hlength⟩ := h
    exact ⟨digits, ⟨hnumeral.isPart.trans hrest.isInfix, hnumeral.areDigits, hnumeral.isLong⟩, hlength⟩

/-- Behind a bracket the reader may go one level less deep. -/
theorem cons_bracket {c : Char} (h : refusal.IsDue depth rest) (hc : isBracket c = true) :
    refusal.IsDue (depth + 1) (c :: rest) := by
  cases refusal with
  | malformed => trivial
  | tooDeep nest =>
    have hrest : depth < rest.countP isBracket := h
    show depth + 1 < (c :: rest).countP isBracket
    rw [List.countP_cons_of_pos hc]
    omega
  | tooLong n => exact (of_suffix h (List.suffix_cons c rest) : IsDue depth _ (.tooLong n))

end Refusal.IsDue

/-- What reading comes to: it goes on in the text, or is refused for a reason in the text. -/
structure IsFair {α : Type} (depth : Nat) (cs : List Char) (result : Read α) : Prop where
  goesOn : ∀ value rest, result = .ok (value, rest) → rest <:+ cs
  isDue : ∀ refusal, result = .error refusal → refusal.IsDue depth cs

namespace IsFair

variable {α β : Type} {depth : Nat} {cs rest : List Char}

theorem ok {value : α} (h : rest <:+ cs) : IsFair depth cs (.ok (value, rest)) where
  goesOn := by
    rintro _ _ ⟨⟩
    exact h
  isDue := by rintro _ ⟨⟩

theorem error {refusal : Refusal} (h : refusal.IsDue depth cs) :
    IsFair depth cs (.error refusal : Read α) where
  goesOn := by rintro _ _ ⟨⟩
  isDue := by
    rintro _ ⟨⟩
    exact h

theorem malformed : IsFair depth cs (.error .malformed : Read α) :=
  error trivial

theorem of_suffix {result : Read α} (h : IsFair depth rest result) (hrest : rest <:+ cs) :
    IsFair depth cs result where
  goesOn := fun value left hresult => (h.goesOn value left hresult).trans hrest
  isDue := fun refusal hresult => (h.isDue refusal hresult).of_suffix hrest

theorem map {result : Read α} (h : IsFair depth cs result) (f : α → β) :
    IsFair depth cs (result.map fun found => (f found.1, found.2)) := by
  cases result with
  | error refusal => exact error (h.isDue refusal rfl)
  | ok found => exact ok (h.goesOn found.1 found.2 rfl)

/-- Behind a bracket the reader may go one level less deep. -/
theorem cons_bracket {c : Char} {result : Read α} (h : IsFair depth rest result)
    (hc : isBracket c = true) : IsFair (depth + 1) (c :: rest) result where
  goesOn := fun value left hresult => (h.goesOn value left hresult).trans (List.suffix_cons c rest)
  isDue := fun refusal hresult => (h.isDue refusal hresult).cons_bracket hc

end IsFair

-- ---------------------------------------------------------------------------
-- Texts and numbers
-- ---------------------------------------------------------------------------

theorem skipGap_suffix (cs : List Char) : skipGap cs <:+ cs :=
  List.dropWhile_suffix _

theorem readText_isFair (depth : Nat) (done : List UInt16) (cs : List Char) :
    IsFair depth cs (readText done cs) := by
  fun_induction readText done cs with
  | case1 => exact .malformed
  | case2 done rest => exact .ok (List.suffix_cons _ rest)
  | case3 done a b c d rest _ _ ih => exact ih.of_suffix ⟨['\\', 'u', a, b, c, d], rfl⟩
  | case4 => exact .malformed
  | case5 done c rest _ _ _ ih => exact ih.of_suffix ⟨['\\', c], rfl⟩
  | case6 => exact .malformed
  | case7 => exact .malformed
  | case8 done c rest _ _ _ _ ih => exact ih.of_suffix (List.suffix_cons c rest)

theorem wholePart_eq {cs whole rest : List Char} (h : wholePart cs = some (whole, rest)) :
    cs = whole ++ rest ∧ ∀ c ∈ whole, c.isDigit := by
  unfold wholePart at h
  split at h
  · cases h
    exact ⟨rfl, List.forall_mem_singleton.2 rfl⟩
  · split at h
    · cases h
      exact ⟨List.takeWhile_append_dropWhile.symm, List.all_eq_true.1 List.all_takeWhile⟩
    · cases h
  · cases h

theorem fractionPart_suffix {cs digits rest : List Char} (h : fractionPart cs = some (digits, rest)) :
    rest <:+ cs := by
  unfold fractionPart at h
  split at h
  · next after =>
    dsimp only at h
    split at h
    · cases h
    · cases h
      exact (List.dropWhile_suffix _).trans (List.suffix_cons _ after)
  · cases h

theorem exponentSign_suffix (cs : List Char) : (exponentSign cs).2 <:+ cs := by
  unfold exponentSign
  split
  · exact List.suffix_cons _ _
  · exact List.suffix_cons _ _
  · exact List.suffix_rfl

theorem exponentPart_suffix {cs rest : List Char} {exponent : Int}
    (h : exponentPart cs = some (exponent, rest)) : rest <:+ cs := by
  unfold exponentPart at h
  split at h
  · next c after =>
    split at h
    · dsimp only at h
      split at h
      · cases h
      · cases h
        exact ((List.dropWhile_suffix _).trans (exponentSign_suffix after)).trans
          (List.suffix_cons c after)
    · cases h
  · cases h

/-- Going on behind a part of a number, if there is one. -/
theorem rest_suffix {α : Type} {part : Option (α × List Char)} {cs : List Char}
    (h : ∀ found, part = some found → found.2 <:+ cs) : (part.map Prod.snd).getD cs <:+ cs := by
  cases part with
  | none => exact List.suffix_rfl
  | some found => exact h found rfl

theorem readUnsigned_isFair (depth : Nat) (negative : Bool) (cs : List Char) :
    IsFair depth cs (readUnsigned negative cs) := by
  unfold readUnsigned
  split
  · exact .malformed
  · next whole rest hwhole =>
    obtain ⟨rfl, hdigits⟩ := wholePart_eq hwhole
    extract_lets fraction behindFraction exponent behindExponent n after power
    have hfraction : behindFraction <:+ rest := rest_suffix fun found => fractionPart_suffix
    have hexponent : behindExponent <:+ behindFraction := rest_suffix fun found => exponentPart_suffix
    have hrest := (hexponent.trans hfraction).trans (List.suffix_append whole rest)
    split
    · split
      · next hlong =>
        exact .error ⟨whole, ⟨(List.prefix_append whole rest).isInfix, hdigits, hlong⟩, rfl⟩
      · exact .ok hrest
    · exact .ok hrest

theorem readScalar_isFair (depth : Nat) (cs : List Char) : IsFair depth cs (readScalar cs) := by
  unfold readScalar
  split
  · next found hfound =>
    obtain ⟨word, -, hword⟩ := List.exists_of_findSome?_eq_some hfound
    obtain ⟨rest, hrest, rfl⟩ := Option.map_eq_some_iff.1 hword
    exact .ok ⟨word.1.toList, (eq_append_of_afterPrefix hrest).symm⟩
  · split
    · next rest _ =>
      exact ((readUnsigned_isFair depth true rest).of_suffix (List.suffix_cons '-' rest)).map Json.number
    · exact (readUnsigned_isFair depth false cs).map Json.number

-- ---------------------------------------------------------------------------
-- Values
-- ---------------------------------------------------------------------------

mutual
theorem readValue_isFair (fuel depth : Nat) (cs : List Char) :
    IsFair depth cs (readValue fuel depth cs) := by
  match fuel with
  | 0 =>
    rw [readValue]
    exact .malformed
  | fuel + 1 =>
    unfold readValue
    split
    · next rest =>
      exact ((readText_isFair depth [] rest).of_suffix (List.suffix_cons '"' rest)).map Json.text
    · next rest =>
      match depth with
      | 0 => exact .error (by simp [Refusal.IsDue, isBracket])
      | depth + 1 =>
        dsimp only
        refine .cons_bracket (.of_suffix ?_ (skipGap_suffix rest)) rfl
        split
        · next rest hgap =>
          rw [hgap]
          exact .ok (List.suffix_cons ']' rest)
        · exact readItems_isFair fuel depth [] _
    · next rest =>
      match depth with
      | 0 => exact .error (by simp [Refusal.IsDue, isBracket])
      | depth + 1 =>
        dsimp only
        refine .cons_bracket (.of_suffix ?_ (skipGap_suffix rest)) rfl
        split
        · next rest hgap =>
          rw [hgap]
          exact .ok (List.suffix_cons '}' rest)
        · exact readEntries_isFair fuel depth [] _
    · exact readScalar_isFair depth cs

theorem readItems_isFair (fuel depth : Nat) (done : List Json) (cs : List Char) :
    IsFair depth cs (readItems fuel depth done cs) := by
  match fuel with
  | 0 =>
    rw [readItems]
    exact .malformed
  | fuel + 1 =>
    have hvalue := readValue_isFair fuel depth cs
    rw [readItems]
    split
    · next refusal hread => exact .error (hvalue.isDue refusal hread)
    · next item rest hread =>
      have hrest := (skipGap_suffix rest).trans (hvalue.goesOn item rest hread)
      split
      · next behind hgap =>
        refine (readItems_isFair fuel depth (item :: done) (skipGap behind)).of_suffix ?_
        exact ((skipGap_suffix behind).trans (List.suffix_cons ',' behind)).trans (hgap ▸ hrest)
      · next behind hgap => exact .ok ((List.suffix_cons ']' behind).trans (hgap ▸ hrest))
      · exact .malformed

theorem readEntries_isFair (fuel depth : Nat) (done : List (Utf16 × Json)) (cs : List Char) :
    IsFair depth cs (readEntries fuel depth done cs) := by
  match fuel with
  | 0 =>
    rw [readEntries]
    exact .malformed
  | fuel + 1 =>
    unfold readEntries
    split
    · next behind =>
      have hkey := (readText_isFair depth [] behind).of_suffix (List.suffix_cons '"' behind)
      split
      · next refusal hread => exact .error (hkey.isDue refusal hread)
      · next key rest hread =>
        have hrest := (skipGap_suffix rest).trans (hkey.goesOn key rest hread)
        split
        · next behind hcolon =>
          have hbehind := ((skipGap_suffix behind).trans (List.suffix_cons ':' behind)).trans
            (hcolon ▸ hrest)
          have hvalue := (readValue_isFair fuel depth (skipGap behind)).of_suffix hbehind
          split
          · next refusal hread => exact .error (hvalue.isDue refusal hread)
          · next value rest hread =>
            have hrest := (skipGap_suffix rest).trans (hvalue.goesOn value rest hread)
            split
            · next behind hgap =>
              refine (readEntries_isFair fuel depth ((key, value) :: done)
                (skipGap behind)).of_suffix ?_
              exact ((skipGap_suffix behind).trans (List.suffix_cons ',' behind)).trans
                (hgap ▸ hrest)
            · next behind hgap => exact .ok ((List.suffix_cons '}' behind).trans (hgap ▸ hrest))
            · exact .malformed
        · exact .malformed
    · exact .malformed
end

/-- A document is refused for a reason in its text. -/
theorem isDue_of_parseWithin {depth : Nat} {cs : List Char} {refusal : Refusal}
    (h : parseWithin depth cs = .error refusal) : refusal.IsDue depth cs := by
  have hfair := (readValue_isFair (enoughFuel cs) depth (skipGap cs)).of_suffix (skipGap_suffix cs)
  unfold parseWithin at h
  cases hread : readValue (enoughFuel cs) depth (skipGap cs) with
  | error other =>
    rw [hread] at h
    cases h
    exact hfair.isDue _ hread
  | ok found =>
    simp only [hread, bind, Except.bind] at h
    split at h
    · cases h
    · cases h
      trivial

-- ---------------------------------------------------------------------------
-- Texts beyond the limits
-- ---------------------------------------------------------------------------

/-- A numeral that is too long is refused. -/
theorem parseWithin_numeral (depth : Nat) {first : Char} {rest : List Char} (hfirst : first.isDigit)
    (hzero : first ≠ '0') (hrest : ∀ c ∈ rest, c.isDigit) (hlong : digitLimit < rest.length + 1) :
    parseWithin depth (first :: rest) = .error (.tooLong (rest.length + 1)) := by
  have hother : ∀ c : Char, c.isDigit = false → first ≠ c := by
    rintro c hc rfl
    exact absurd hfirst (by simp [hc])
  have hgap : skipGap (first :: rest) = first :: rest := by
    refine List.dropWhile_cons_of_neg ?_
    simp [isGap, hother ' ' rfl, hother '\t' rfl, hother '\n' rfl, hother '\r' rfl]
  have hwords : words.findSome? (fun word =>
      (afterPrefix word.1.toList (first :: rest)).map fun rest => (word.2, rest)) = none := by
    simp [words, afterPrefix, (hother 'n' rfl).symm, (hother 't' rfl).symm, (hother 'f' rfl).symm,
      (hother 'N' rfl).symm, (hother 'I' rfl).symm, (hother '-' rfl).symm]
  have hdigits : ∀ c ∈ first :: rest, c.isDigit := List.forall_mem_cons.2 ⟨hfirst, hrest⟩
  have hwhole : wholePart (first :: rest) = some (first :: rest, []) := by
    rw [wholePart, if_pos hfirst, List.takeWhile_eq_self_iff.2 hdigits,
      List.dropWhile_eq_nil_iff.2 hdigits]
    exact hzero
  have hnumber : readUnsigned false (first :: rest) = .error (.tooLong (rest.length + 1)) := by
    simp [readUnsigned, hwhole, fractionPart, exponentPart, hlong]
  have hscalar : readScalar (first :: rest) = .error (.tooLong (rest.length + 1)) := by
    unfold readScalar
    rw [hwords]
    dsimp only
    split
    · next heq => exact absurd (List.cons.inj heq).1 (hother '-' rfl)
    · rw [hnumber]
      rfl
  have hvalue : ∀ fuel depth, readValue (fuel + 1) depth (first :: rest) =
      .error (.tooLong (rest.length + 1)) := by
    intro fuel depth
    unfold readValue
    split
    · next heq => exact absurd (List.cons.inj heq).1 (hother '"' rfl)
    · next heq => exact absurd (List.cons.inj heq).1 (hother '[' rfl)
    · next heq => exact absurd (List.cons.inj heq).1 (hother '\x7b' rfl)
    · exact hscalar
  rw [parseWithin, hgap, enoughFuel, hvalue]
  rfl

/-- Lists that open one in another, more than may nest, are refused. -/
theorem readValue_replicate_bracket {n depth fuel : Nat} (h : depth < n) (hfuel : 2 * depth < fuel) :
    readValue fuel depth (List.replicate n '[') = .error (.tooDeep .list) := by
  induction depth generalizing n fuel with
  | zero =>
    obtain ⟨n, rfl⟩ := Nat.exists_eq_add_of_lt h
    obtain ⟨fuel, rfl⟩ := Nat.exists_eq_add_of_lt hfuel
    rw [Nat.zero_add, List.replicate_succ, readValue]
  | succ depth ih =>
    obtain ⟨n, rfl⟩ := Nat.exists_eq_add_of_lt h
    obtain ⟨fuel, rfl⟩ := Nat.exists_eq_add_of_lt hfuel
    have hitem : readValue (2 * depth + 1 + fuel) depth ('[' :: List.replicate (depth + n) '[') =
        .error (.tooDeep .list) := ih (n := depth + n + 1) (by omega) (by omega)
    have hfuels : 2 * (depth + 1) + fuel + 1 = 2 * depth + 1 + fuel + 1 + 1 := by omega
    have hbrackets : List.replicate (depth + 1 + n + 1) '[' =
        '[' :: '[' :: List.replicate (depth + n) '[' := by
      rw [Nat.add_right_comm depth 1 n]
      rfl
    have hgap : skipGap ('[' :: List.replicate (depth + n) '[') =
        '[' :: List.replicate (depth + n) '[' := rfl
    rw [hfuels, hbrackets, readValue, hgap]
    show readItems (2 * depth + 1 + fuel + 1) depth [] ('[' :: List.replicate (depth + n) '[') = _
    rw [readItems, hitem]

theorem parseWithin_replicate_bracket {n depth : Nat} (h : depth < n) :
    parseWithin depth (List.replicate n '[') = .error (.tooDeep .list) := by
  have hgap : skipGap (List.replicate n '[') = List.replicate n '[' := by
    obtain ⟨n, rfl⟩ := Nat.exists_eq_add_of_lt h
    rfl
  have hfuel : 2 * depth < enoughFuel (List.replicate n '[') := by
    rw [enoughFuel, List.length_replicate]
    omega
  have hvalue := readValue_replicate_bracket h hfuel
  rw [parseWithin, hgap, hvalue]
  rfl

end FlakeLint.Json
