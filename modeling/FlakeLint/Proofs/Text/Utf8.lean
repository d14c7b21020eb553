-- SUMMARY: What the UTF-8 decoder makes of encoded text and of starts of it.
import FlakeLint.Text.Utf8
import Mathlib.Data.List.Basic
import Mathlib.Tactic.IntervalCases

/-!
# Decoding encoded text

Encoded text decodes to itself. A start of it that ends inside a character decodes
to the characters before that one and one replacement character, so the decoder
counts the characters that start before a byte.
-/

namespace FlakeLint.Utf8

/-! ## Single bytes -/

section

variable (offset : Nat) {n : Nat}

theorem opening_of_one (h : n < 0x80) :
    opening offset (.ofNat n) = .inl (.char (Char.ofNat n)) := by
  unfold opening
  simp only [UInt8.lt_iff_toNat_lt, UInt8.toNat_ofNat', UInt8.reduceToNat]
  rw [if_pos (by omega), Nat.mod_eq_of_lt (by omega)]

theorem opening_of_two (h : 0xC2 ≤ n) (h' : n < 0xE0) :
    opening offset (.ofNat n) = .inr ⟨offset, .ofNat n, 1, 0x80, 0xBF, n - 0xC0⟩ := by
  interval_cases n <;> rfl

theorem opening_of_three (h : 0xE0 ≤ n) (h' : n < 0xF0) :
    opening offset (.ofNat n) = .inr ⟨offset, .ofNat n, 2, if n = 0xE0 then 0xA0 else 0x80,
      if n = 0xED then 0x9F else 0xBF, n - 0xE0⟩ := by
  interval_cases n <;> rfl

theorem opening_of_four (h : 0xF0 ≤ n) (h' : n < 0xF5) :
    opening offset (.ofNat n) = .inr ⟨offset, .ofNat n, 3, if n = 0xF0 then 0x90 else 0x80,
      if n = 0xF4 then 0x8F else 0xBF, n - 0xF0⟩ := by
  interval_cases n <;> rfl

variable {start code m : Nat} {first low high b : UInt8}

/-- The last byte of a character completes it. -/
theorem pieces_last (hlow : low ≤ b) (hhigh : b ≤ high) (bs : List UInt8) :
    pieces (some ⟨start, first, 1, low, high, code⟩) offset (b :: bs) =
      .char (Char.ofNat (code * 64 + (b.toNat - 0x80))) :: pieces none (offset + 1) bs := by
  rw [pieces, if_pos ⟨hlow, hhigh⟩]
  rfl

/-- Any other byte of a character that fits leaves one byte fewer to come. -/
theorem pieces_next (hlow : low ≤ b) (hhigh : b ≤ high) (bs : List UInt8) :
    pieces (some ⟨start, first, m + 2, low, high, code⟩) offset (b :: bs) =
      pieces (some ⟨start, first, m + 1, 0x80, 0xBF, code * 64 + (b.toNat - 0x80)⟩)
        (offset + 1) bs := by
  rw [pieces, if_pos ⟨hlow, hhigh⟩]
  dsimp only
  rw [if_neg (by omega)]
  rfl

end

/-- A byte after the first one of a character, holding six bits of it. -/
def continuation (v : Nat) : UInt8 :=
  .ofNat (v % 64 + 0x80)

theorem toNat_continuation (v : Nat) : (continuation v).toNat = v % 64 + 0x80 := by
  unfold continuation
  rw [UInt8.toNat_ofNat']
  omega

theorem le_continuation (v : Nat) : 0x80 ≤ continuation v := by
  rw [UInt8.le_iff_toNat_le, toNat_continuation]
  exact Nat.le_add_left _ _

theorem continuation_le (v : Nat) : continuation v ≤ 0xBF := by
  rw [UInt8.le_iff_toNat_le, toNat_continuation]
  exact Nat.add_le_add_right (Nat.le_of_lt_succ (Nat.mod_lt v (by decide))) 0x80

/-! ## Single characters -/

/-- The bytes of a character by its number of bytes. -/
theorem utf8EncodeChar_cases (c : Char) :
    (c.toNat < 0x80 ∧ String.utf8EncodeChar c = [.ofNat c.toNat]) ∨
    (0x80 ≤ c.toNat ∧ c.toNat < 0x800 ∧
      String.utf8EncodeChar c = [.ofNat (c.toNat / 64 + 0xC0), continuation c.toNat]) ∨
    (0x800 ≤ c.toNat ∧ c.toNat < 0x10000 ∧ ¬ (0xD800 ≤ c.toNat ∧ c.toNat < 0xE000) ∧
      String.utf8EncodeChar c = [.ofNat (c.toNat / 4096 + 0xE0), continuation (c.toNat / 64),
        continuation c.toNat]) ∨
    (0x10000 ≤ c.toNat ∧ c.toNat < 0x110000 ∧
      String.utf8EncodeChar c = [.ofNat (c.toNat / 262144 + 0xF0),
        continuation (c.toNat / 4096), continuation (c.toNat / 64), continuation c.toNat]) := by
  have hvalid : c.toNat < 0xD800 ∨ 0xDFFF < c.toNat ∧ c.toNat < 0x110000 := c.valid
  have htoNat : c.val.toNat = c.toNat := rfl
  unfold String.utf8EncodeChar continuation
  dsimp only
  rw [htoNat]
  split
  · exact .inl ⟨by omega, rfl⟩
  · split
    · refine .inr (.inl ⟨by omega, by omega, ?_⟩)
      rw [Nat.mod_eq_of_lt (by omega : c.toNat / 64 < 0x20)]
    · split
      · refine .inr (.inr (.inl ⟨by omega, by omega, by omega, ?_⟩))
        rw [Nat.mod_eq_of_lt (by omega : c.toNat / 4096 < 0x10)]
      · refine .inr (.inr (.inr ⟨by omega, by omega, ?_⟩))
        rw [Nat.mod_eq_of_lt (by omega : c.toNat / 262144 < 0x08)]

/-- The second of three bytes is none that would make an overlong form or a surrogate. -/
theorem second_of_three {v : Nat} (h : 0x800 ≤ v) (h' : v < 0x10000)
    (hvalid : ¬ (0xD800 ≤ v ∧ v < 0xE000)) :
    (if v / 4096 + 0xE0 = 0xE0 then 0xA0 else 0x80) ≤ continuation (v / 64) ∧
    continuation (v / 64) ≤ (if v / 4096 + 0xE0 = 0xED then 0x9F else 0xBF) := by
  constructor
  · split
    · simp only [UInt8.le_iff_toNat_le, toNat_continuation, UInt8.reduceToNat]
      omega
    · exact le_continuation _
  · split
    · simp only [UInt8.le_iff_toNat_le, toNat_continuation, UInt8.reduceToNat]
      omega
    · exact continuation_le _

/-- The second of four bytes is none that would make an overlong form or a number too large. -/
theorem second_of_four {v : Nat} (h : 0x10000 ≤ v) (h' : v < 0x110000) :
    (if v / 262144 + 0xF0 = 0xF0 then 0x90 else 0x80) ≤ continuation (v / 4096) ∧
    continuation (v / 4096) ≤ (if v / 262144 + 0xF0 = 0xF4 then 0x8F else 0xBF) := by
  constructor
  · split
    · simp only [UInt8.le_iff_toNat_le, toNat_continuation, UInt8.reduceToNat]
      omega
    · exact le_continuation _
  · split
    · simp only [UInt8.le_iff_toNat_le, toNat_continuation, UInt8.reduceToNat]
      omega
    · exact continuation_le _

/-- A whole character is read as such, whatever follows it. -/
theorem pieces_encodeChar (c : Char) (offset : Nat) (rest : List UInt8) :
    pieces none offset (String.utf8EncodeChar c ++ rest) =
      .char c :: pieces none (offset + c.utf8Size) rest := by
  rw [← String.length_utf8EncodeChar]
  have hchar {n : Nat} (h : n = c.toNat) : Char.ofNat n = c := by rw [h, Char.ofNat_toNat]
  -- One case for each length: a byte leaves the state in which the next one is read.
  rcases utf8EncodeChar_cases c with ⟨h, heq⟩ | ⟨h, h', heq⟩ | ⟨h, h', hvalid, heq⟩ | ⟨h, h', heq⟩
  · rw [heq, List.singleton_append, pieces, opening_of_one offset h]
    dsimp only
    rw [hchar rfl]
    rfl
  · rw [heq, List.cons_append, pieces, opening_of_two offset (by omega) (by omega)]
    dsimp only
    rw [List.singleton_append,
      pieces_last _ (le_continuation _) (continuation_le _), toNat_continuation]
    rw [hchar (by omega)]
    rfl
  · obtain ⟨hlow, hhigh⟩ := second_of_three h h' hvalid
    rw [heq, List.cons_append, pieces, opening_of_three offset (by omega) (by omega)]
    dsimp only
    rw [List.cons_append, pieces_next _ hlow hhigh, List.singleton_append,
      pieces_last _ (le_continuation _) (continuation_le _), toNat_continuation,
      toNat_continuation]
    rw [hchar (by omega)]
    rfl
  · obtain ⟨hlow, hhigh⟩ := second_of_four h h'
    rw [heq, List.cons_append, pieces, opening_of_four offset (by omega) (by omega)]
    dsimp only
    rw [List.cons_append, pieces_next _ hlow hhigh, List.cons_append,
      pieces_next _ (le_continuation _) (continuation_le _), List.singleton_append,
      pieces_last _ (le_continuation _) (continuation_le _), toNat_continuation,
      toNat_continuation, toNat_continuation]
    rw [hchar (by omega)]
    rfl

/-- A character that is cut off makes one broken part. -/
theorem length_pieces_take_encodeChar {c : Char} {n : Nat} (hn : 0 < n) (hsize : n < c.utf8Size)
    (offset : Nat) : (pieces none offset ((String.utf8EncodeChar c).take n)).length = 1 := by
  rw [← String.length_utf8EncodeChar] at hsize
  rcases utf8EncodeChar_cases c with ⟨h, heq⟩ | ⟨h, h', heq⟩ | ⟨h, h', hvalid, heq⟩ | ⟨h, h', heq⟩
  · rw [heq, List.length_singleton] at hsize
    omega
  · rw [heq] at hsize ⊢
    obtain rfl : n = 1 := by simp only [List.length_cons, List.length_nil] at hsize; omega
    rw [List.take_succ_cons, pieces, opening_of_two offset (by omega) (by omega)]
    rfl
  · obtain ⟨hlow, hhigh⟩ := second_of_three h h' hvalid
    rw [heq] at hsize ⊢
    obtain rfl | rfl : n = 1 ∨ n = 2 := by simp only [List.length_cons, List.length_nil] at hsize; omega
    · rw [List.take_succ_cons, pieces, opening_of_three offset (by omega) (by omega)]
      rfl
    · rw [List.take_succ_cons, pieces, opening_of_three offset (by omega) (by omega)]
      dsimp only
      rw [List.take_succ_cons, pieces_next _ hlow hhigh]
      rfl
  · obtain ⟨hlow, hhigh⟩ := second_of_four h h'
    rw [heq] at hsize ⊢
    obtain rfl | rfl | rfl : n = 1 ∨ n = 2 ∨ n = 3 := by
      simp only [List.length_cons, List.length_nil] at hsize
      omega
    · rw [List.take_succ_cons, pieces, opening_of_four offset (by omega) (by omega)]
      rfl
    · rw [List.take_succ_cons, pieces, opening_of_four offset (by omega) (by omega)]
      dsimp only
      rw [List.take_succ_cons, pieces_next _ hlow hhigh]
      rfl
    · rw [List.take_succ_cons, pieces, opening_of_four offset (by omega) (by omega)]
      dsimp only
      rw [List.take_succ_cons, pieces_next _ hlow hhigh, List.take_succ_cons,
        pieces_next _ (le_continuation _) (continuation_le _)]
      rfl

/-! ## Texts -/

theorem encode_cons (c : Char) (cs : List Char) :
    encode (c :: cs) = String.utf8EncodeChar c ++ encode cs :=
  List.flatMap_cons

theorem encode_append (cs ds : List Char) : encode (cs ++ ds) = encode cs ++ encode ds :=
  List.flatMap_append

/-- How many of the characters start before a byte of their encoding. -/
def startedBefore : List Char → Nat → Nat
  | [], _ => 0
  | c :: cs, n => if n = 0 then 0 else startedBefore cs (n - c.utf8Size) + 1

theorem startedBefore_le_length (cs : List Char) (n : Nat) : startedBefore cs n ≤ cs.length := by
  induction cs generalizing n with
  | nil => exact le_refl 0
  | cons c cs ih =>
    rw [startedBefore, List.length_cons]
    split
    · exact Nat.zero_le _
    · exact Nat.succ_le_succ (ih _)

theorem startedBefore_mono (cs : List Char) {m n : Nat} (h : m ≤ n) :
    startedBefore cs m ≤ startedBefore cs n := by
  induction cs generalizing m n with
  | nil => exact le_refl 0
  | cons c cs ih =>
    rw [startedBefore, startedBefore]
    split
    · exact Nat.zero_le _
    · rw [if_neg (by omega)]
      exact Nat.succ_le_succ (ih (Nat.sub_le_sub_right h _))

theorem length_pieces_take_encode (cs : List Char) (n offset : Nat) :
    (pieces none offset ((encode cs).take n)).length = startedBefore cs n := by
  induction cs generalizing n offset with
  | nil => simp [encode, pieces, startedBefore]
  | cons c cs ih =>
    rw [encode_cons, startedBefore]
    by_cases hzero : n = 0
    · simp [hzero, pieces]
    · rw [if_neg hzero]
      by_cases hsize : n < c.utf8Size
      · have hlength := String.length_utf8EncodeChar c
        rw [List.take_append_of_le_length (by omega),
          length_pieces_take_encodeChar (by omega) hsize, Nat.sub_eq_zero_of_le hsize.le]
        cases cs <;> rfl
      · rw [List.take_append, String.length_utf8EncodeChar, List.take_of_length_le
          (by rw [String.length_utf8EncodeChar]; omega), pieces_encodeChar, List.length_cons, ih]

/-- The decoder counts the characters that start before a byte. -/
theorem length_decode_take_encode (cs : List Char) (n : Nat) :
    (decode ((encode cs).take n)).length = startedBefore cs n := by
  unfold decode
  rw [List.length_map, length_pieces_take_encode]

theorem pieces_encode (cs : List Char) (offset : Nat) :
    pieces none offset (encode cs) = cs.map .char := by
  induction cs generalizing offset with
  | nil => rfl
  | cons c cs ih => rw [encode_cons, pieces_encodeChar, ih, List.map_cons]

/-- Encoded text decodes to itself. -/
theorem decode_encode (cs : List Char) : decode (encode cs) = cs := by
  unfold decode
  rw [pieces_encode, List.map_map]
  exact List.map_id cs

/-- Encoded text has no broken part. -/
theorem decodeStrict_encode (cs : List Char) : decodeStrict (encode cs) = .ok cs := by
  have hbroken : (cs.map Piece.char).findSome? Piece.broken? = none := by
    rw [List.findSome?_map]
    exact List.findSome?_eq_none_iff.2 fun _ _ => rfl
  unfold decodeStrict
  rw [pieces_encode]
  dsimp only
  rw [hbroken, List.map_map]
  exact congrArg Except.ok (List.map_id cs)

end FlakeLint.Utf8
