-- SUMMARY: Where offsets into a source are: rows, columns, and the text between two of them.
import FlakeLint.Proofs.Text.Lines
import FlakeLint.Proofs.Tree.Outline
import Mathlib.Data.Prod.Lex

/-!
# Placement

The place of an offset is read off the bytes from the front: a newline starts a
row, any other byte moves a column on. Places keep the order of their offsets, and
a place within the source lies in the table of lines.
-/

namespace FlakeLint

/-! ## Places of offsets -/

namespace Point

/-- The place of an offset; behind the end, columns go on counting. -/
def ofOffset : List UInt8 → Nat → Point
  | _, 0 => ⟨0, 0⟩
  | [], n + 1 => ⟨0, n + 1⟩
  | b :: bs, n + 1 =>
    let rest := ofOffset bs n
    if b == 0x0A then ⟨rest.row + 1, rest.column⟩
    else if rest.row = 0 then ⟨0, rest.column + 1⟩ else rest

@[simp]
theorem ofOffset_zero (bs : List UInt8) : ofOffset bs 0 = ⟨0, 0⟩ := by
  cases bs <;> rfl

/-- The place that one byte leads on to. -/
def advance (point : Point) (b : UInt8) : Point :=
  if b == 0x0A then ⟨point.row + 1, 0⟩ else ⟨point.row, point.column + 1⟩

/-- The place that is as far behind one place as another one is behind the start. -/
def followedBy (point next : Point) : Point :=
  if next.row = 0 then ⟨point.row, point.column + next.column⟩
  else ⟨point.row + next.row, next.column⟩

theorem foldl_advance (point : Point) (bs : List UInt8) :
    bs.foldl advance point = point.followedBy (ofOffset bs bs.length) := by
  induction bs generalizing point with
  | nil => simp [followedBy]
  | cons b bs ih =>
    rw [List.foldl_cons, ih, List.length_cons, ofOffset]
    unfold advance followedBy
    by_cases hb : b == 0x0A
    · simp only [hb, if_true]
      by_cases hrow : (ofOffset bs bs.length).row = 0
      · simp [hrow]
      · simp [hrow]
        omega
    · simp only [hb, Bool.false_eq_true, if_false]
      by_cases hrow : (ofOffset bs bs.length).row = 0
      · simp [hrow]
        omega
      · simp [hrow]

theorem followedBy_origin (point : Point) : followedBy ⟨0, 0⟩ point = point := by
  unfold followedBy
  split
  · next h =>
    rw [Nat.zero_add, ← h]
  · rw [Nat.zero_add]

theorem ofOffset_take {bs : List UInt8} {n : Nat} (h : n ≤ bs.length) :
    ofOffset (bs.take n) n = ofOffset bs n := by
  induction bs generalizing n with
  | nil =>
    obtain rfl := Nat.le_zero.1 h
    rfl
  | cons b bs ih =>
    cases n with
    | zero => rfl
    | succ n =>
      rw [List.take_succ_cons, ofOffset, ofOffset, ih (Nat.le_of_succ_le_succ h)]

/-- Behind the end, the column alone goes on. -/
theorem ofOffset_length_add (bs : List UInt8) (n : Nat) :
    ofOffset bs (bs.length + n) =
      ⟨(ofOffset bs bs.length).row, (ofOffset bs bs.length).column + n⟩ := by
  induction bs with
  | nil =>
    cases n with
    | zero => rfl
    | succ n => simp [ofOffset]
  | cons b bs ih =>
    rw [List.length_cons, Nat.add_right_comm, ofOffset, ofOffset, ih]
    dsimp only
    split
    · rfl
    · split <;> simp [*]
      omega

/-- The place comes first or is the same. -/
def IsUpTo (first last : Point) : Prop :=
  first.row < last.row ∨ first.row = last.row ∧ first.column ≤ last.column

theorem IsUpTo.row_le {first last : Point} (h : first.IsUpTo last) : first.row ≤ last.row := by
  unfold IsUpTo at h
  omega

theorem IsUpTo.trans {first middle last : Point} (h : first.IsUpTo middle) (h' : middle.IsUpTo last) :
    first.IsUpTo last := by
  unfold IsUpTo at *
  omega

theorem ofOffset_isUpTo (bs : List UInt8) {m n : Nat} (h : m ≤ n) :
    (ofOffset bs m).IsUpTo (ofOffset bs n) := by
  induction bs generalizing m n with
  | nil => cases m <;> cases n <;> simp_all [ofOffset, IsUpTo]
  | cons b bs ih =>
    cases m with
    | zero =>
      simp only [ofOffset, IsUpTo]
      omega
    | succ m =>
      cases n with
      | zero => omega
      | succ n =>
        have hrest := ih (Nat.le_of_succ_le_succ h)
        unfold IsUpTo at hrest ⊢
        rw [ofOffset, ofOffset]
        split
        · dsimp only
          omega
        · split
          · split
            · dsimp only
              omega
            · dsimp only
              omega
          · split
            · dsimp only
              omega
            · omega

/-- The place of an offset into a source lies on one of its lines, at the end of it at most. -/
theorem ofOffset_on_line {bs : List UInt8} {n : Nat} (h : n ≤ bs.length) :
    ∃ line, (Text.splitOn 0x0A bs)[(ofOffset bs n).row]? = some line ∧
      (ofOffset bs n).column ≤ line.length := by
  induction bs generalizing n with
  | nil =>
    obtain rfl := Nat.le_zero.1 h
    exact ⟨[], rfl, le_refl 0⟩
  | cons b bs ih =>
    cases n with
    | zero =>
      obtain ⟨first, rest, hlines⟩ := Text.exists_splitOn_eq_cons 0x0A (b :: bs)
      rw [hlines]
      exact ⟨first, rfl, Nat.zero_le _⟩
    | succ n =>
      obtain ⟨line, hline, hcolumn⟩ := ih (Nat.le_of_succ_le_succ h)
      rw [ofOffset]
      -- A line break moves the rest down by a line; any other byte makes its first line longer.
      by_cases hb : b = 0x0A
      · rw [if_pos (beq_iff_eq.2 hb), hb, Text.splitOn_cons_self]
        exact ⟨line, hline, hcolumn⟩
      · rw [if_neg (fun heq => hb (beq_iff_eq.1 heq))]
        obtain ⟨first, rest, hlines⟩ := Text.exists_splitOn_eq_cons 0x0A bs
        rw [Text.splitOn_cons_of_ne hb hlines]
        rw [hlines] at hline
        by_cases hrow : (ofOffset bs n).row = 0
        · rw [hrow, List.getElem?_cons_zero, Option.some_inj] at hline
          subst hline
          rw [if_pos hrow]
          exact ⟨b :: first, rfl, Nat.succ_le_succ hcolumn⟩
        · rw [if_neg hrow]
          obtain ⟨row, hsucc⟩ := Nat.exists_eq_succ_of_ne_zero hrow
          rw [hsucc] at hline ⊢
          exact ⟨line, hline, hcolumn⟩

end Point

theorem toList_pointsOf (bytes : List UInt8) :
    (pointsOf bytes).toList = bytes.scanl Point.advance ⟨0, 0⟩ := by
  have hfold (points : Array Point) (point : Point) :
      (bytes.foldl (fun state b => (state.1.push (state.2.advance b), state.2.advance b))
        (points, point)).1.toList = points.toList ++ (bytes.scanl Point.advance point).tail := by
    induction bytes generalizing points point with
    | nil => simp
    | cons b bytes ih =>
      rw [List.foldl_cons, ih, Array.toList_push, List.scanl_cons, List.tail_cons,
        List.append_assoc]
      congr 1
      cases bytes <;> simp
  refine (hfold #[⟨0, 0⟩] ⟨0, 0⟩).trans ?_
  cases bytes <;> simp

/-- The table of points has the place of every offset. -/
theorem pointAt_pointsOf (bytes : List UInt8) (offset : Nat) :
    pointAt (pointsOf bytes) offset = Point.ofOffset bytes offset := by
  have hpoint (n : Nat) (h : n ≤ bytes.length) :
      (bytes.take n).foldl Point.advance ⟨0, 0⟩ = Point.ofOffset bytes n := by
    rw [Point.foldl_advance, Point.followedBy_origin, List.length_take, Nat.min_eq_left h,
      Point.ofOffset_take h]
  unfold pointAt
  rw [← Array.getElem?_toList, ← Array.getLast?_toList, ← Array.length_toList, toList_pointsOf,
    List.getElem?_scanl, List.getLast?_scanl, List.length_scanl]
  by_cases h : offset ≤ bytes.length
  · rw [if_pos h]
    exact hpoint offset h
  · have hlast := hpoint bytes.length (le_refl _)
    rw [List.take_length] at hlast
    obtain ⟨n, rfl⟩ := Nat.exists_eq_add_of_le (Nat.le_of_not_le h)
    rw [if_neg h, hlast, Point.ofOffset_length_add]
    simp

/-! ## Text between offsets -/

theorem toList_loop_eq (bytes : ByteArray) (i : Nat) (read : List UInt8) :
    ByteArray.toList.loop bytes i read = read.reverse ++ bytes.data.toList.drop i := by
  fun_induction ByteArray.toList.loop bytes i read with
  | case1 i read h ih =>
    have hi : i < bytes.data.toList.length := h
    rw [ih, List.reverse_cons, List.append_assoc, List.singleton_append,
      List.drop_eq_getElem_cons hi]
    congr 2
    exact getElem!_pos bytes.data i h
  | case2 i read h =>
    have hi : bytes.data.toList.length ≤ i := Nat.le_of_not_lt h
    rw [List.drop_eq_nil_of_le hi, List.append_nil]

theorem textBetween_eq (bytes : List UInt8) (start stop : Nat) :
    textBetween ⟨bytes.toArray⟩ start stop =
      String.ofList (Utf8.decode ((bytes.drop start).take (stop - start))) := by
  unfold textBetween ByteArray.toList
  rw [toList_loop_eq, ByteArray.data_extract]
  simp [List.extract_eq_take_drop]

/-- Between offsets at whole characters stands the text that was encoded there. -/
theorem textBetween_encode {cs before text after : List Char} {start stop : Nat}
    (hcs : cs = before ++ text ++ after) (hstart : (Utf8.encode before).length = start)
    (hstop : start + (Utf8.encode text).length = stop) :
    textBetween ⟨(Utf8.encode cs).toArray⟩ start stop = String.ofList text := by
  subst hcs hstart hstop
  rw [textBetween_eq, Nat.add_sub_cancel_left, Utf8.encode_append, Utf8.encode_append,
    List.append_assoc, List.drop_left, List.take_left, Utf8.decode_encode]

end FlakeLint
