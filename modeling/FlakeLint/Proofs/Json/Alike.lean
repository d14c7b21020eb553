-- SUMMARY: Equality of values is transitive, and reflexive on values without repeated keys.
import FlakeLint.Json.Reader
import FlakeLint.Proofs.Number.Rounding
import FlakeLint.Proofs.Table
import FlakeLint.Proofs.Traversal

/-!
# Equality of values

Equal values need not be held in the same way: numbers are compared by what they are
worth, tables without regard to order. That equality is still transitive, level by
level, is what lets a list without equal members be kept up member by member.
-/

namespace FlakeLint

-- ---------------------------------------------------------------------------
-- Numbers
-- ---------------------------------------------------------------------------

namespace Double

variable {s t : Bool} {m n : Nat} {e f : Int}

theorem compare?_finite : (finite s m e).compare? (finite t n f) = some .eq ↔
    (finite s m e).value = (finite t n f).value := by
  have hscale (a : Int) {g : Int} (hg : min e f ≤ g) : (a : ℚ) * 2 ^ g =
      ((a * 2 ^ (g - min e f).toNat : Int) : ℚ) * 2 ^ min e f := by
    push_cast
    rw [mul_assoc, ← zpow_natCast, Int.toNat_of_nonneg (sub_nonneg.2 hg), ← zpow_add₀ two_ne_zero,
      sub_add_cancel]
  rw [value_finite, value_finite, Option.some_inj, hscale _ (min_le_left e f),
    hscale _ (min_le_right e f), mul_left_inj' (zpow_ne_zero _ two_ne_zero), Int.cast_inj]
  exact Option.some_inj.trans compare_eq_iff_eq

theorem compareInt?_eq_iff {d : Double} {whole : Int} :
    d.compareInt? whole = some .eq ↔ d.value = some (whole : ℚ) := by
  cases d with
  | finite s m e =>
    rw [value, Option.some_inj, div_eq_iff (pow_ne_zero _ two_ne_zero)]
    have hcompare : (finite s m e).compareInt? whole = some .eq ↔
        signed s m * 2 ^ e.toNat = whole * ((2 ^ (-e).toNat : Nat) : Int) :=
      Option.some_inj.trans compare_eq_iff_eq
    rw [hcompare, ← @Int.cast_inj ℚ]
    push_cast
    rfl
  | infinite s => cases s <;> simp [compareInt?, value]
  | nan => simp [compareInt?, value]

end Double

namespace Number

/-- What a number is worth: a rational number, unless it is a double that stands for none. -/
def worth : Number → ℚ ⊕ Double
  | .int n => .inl n
  | .real d => match d.value with
    | some q => .inl q
    | none => .inr d

end Number

namespace Json

/-- Numbers are alike if they are worth the same. -/
theorem alikeNumbers_iff {m n : Number} : alikeNumbers m n ↔ m.worth = n.worth := by
  rw [alikeNumbers, Bool.or_eq_true, beq_iff_eq, Number.same, beq_iff_eq]
  have hmixed (whole : Int) (d : Double) :
      (d.compareInt? whole = some .eq) ↔ (Number.real d).worth = .inl (whole : ℚ) := by
    rw [Double.compareInt?_eq_iff, Number.worth]
    cases d.value <;> simp
  cases m with
  | int a =>
    cases n with
    | int b => simp [Number.compare?, Number.worth]
    | real y =>
      have hswap : (y.compareInt? a).map Ordering.swap = some .eq ↔ y.compareInt? a = some .eq := by
        rcases y.compareInt? a with _ | _ | _ | _ <;> simp
      simp only [Number.compare?, reduceCtorEq, false_or, hswap, hmixed]
      exact eq_comm
  | real x =>
    cases n with
    | int b => simp only [Number.compare?, reduceCtorEq, false_or, hmixed, Number.worth]
    | real y =>
      rw [Number.real.injEq, Number.compare?]
      match x, y with
      | .finite .., .finite .. =>
        rw [Double.compare?_finite, or_iff_right_of_imp (congrArg Double.value)]
        simp only [Number.worth, Double.value_finite, Sum.inl.injEq, Option.some_inj]
      | .infinite s, .infinite t =>
        cases s <;> cases t <;> simp [Number.worth, Double.value, Double.compare?]
      | .finite .., .infinite t | .infinite t, .finite .. =>
        cases t <;> simp [Number.worth, Double.value, Double.compare?]
      | .nan, .finite .. | .nan, .infinite _ | .nan, .nan | .finite .., .nan | .infinite _, .nan =>
        simp [Number.worth, Double.value, Double.compare?]

-- ---------------------------------------------------------------------------
-- What a value is alike to
-- ---------------------------------------------------------------------------

section

variable {x y : Json}

theorem alike_null_iff : alike .null y ↔ y = .null := by
  cases y <;> simp [alike]

theorem alike_text_iff {s : Utf16} : alike (.text s) y ↔ y = .text s := by
  cases y with
  | text t => simpa [alike] using eq_comm
  | _ => simp [alike]

theorem alike_of_asNumber? {m : Number} (h : x.asNumber? = some m) :
    alike x y ↔ ∃ n, y.asNumber? = some n ∧ m.worth = n.worth := by
  cases x with
  | bool a | number a =>
    cases h
    rw [alike]
    cases y.asNumber? <;> simp [alikeNumbers_iff]
  | _ => cases h

theorem alike_list_iff {xs : List Json} :
    alike (.list xs) y ↔ ∃ ys, y = .list ys ∧ alikeItems xs ys := by
  cases y <;> simp [alike]

theorem alike_table_iff {xs : List (Utf16 × Json)} : alike (.table xs) y ↔
    ∃ ys, y = .table ys ∧ xs.length = ys.length ∧ alikeEntries xs ys := by
  cases y <;> simp [alike]

theorem alikeEntries_iff {xs ys : List (Utf16 × Json)} : alikeEntries xs ys ↔
    ∀ entry ∈ xs, ∃ y, Table.get? ys entry.1 = some y ∧ alike entry.2 y := by
  induction xs with
  | nil => simp [alikeEntries]
  | cons entry xs ih =>
    rw [alikeEntries, Bool.and_eq_true, ih, List.forall_mem_cons]
    refine and_congr_left' ?_
    cases Table.get? ys entry.1 <;> simp

end

-- ---------------------------------------------------------------------------
-- Transitivity
-- ---------------------------------------------------------------------------

theorem alike_trans_of_asNumber? {x y z : Json} {m : Number} (h : x.asNumber? = some m)
    (hxy : alike x y) (hyz : alike y z) : alike x z := by
  obtain ⟨n, hn, hworth⟩ := (alike_of_asNumber? h).1 hxy
  obtain ⟨k, hk, hworth'⟩ := (alike_of_asNumber? hn).1 hyz
  exact (alike_of_asNumber? h).2 ⟨k, hk, hworth.trans hworth'⟩

mutual
/-- What is alike stays so from one value to the next. The induction is on the first value: in a table,
the entry that answers to one of its entries has itself an answer in the next table. -/
theorem alike_trans (x : Json) {y z : Json} (hxy : alike x y) (hyz : alike y z) : alike x z := by
  match x with
  | .null =>
    rw [alike_null_iff] at hxy
    exact hxy ▸ hyz
  | .text s =>
    rw [alike_text_iff] at hxy
    exact hxy ▸ hyz
  | .bool a => exact alike_trans_of_asNumber? rfl hxy hyz
  | .number m => exact alike_trans_of_asNumber? rfl hxy hyz
  | .list xs =>
    obtain ⟨ys, rfl, hxs⟩ := alike_list_iff.1 hxy
    obtain ⟨zs, rfl, hys⟩ := alike_list_iff.1 hyz
    exact alike_list_iff.2 ⟨zs, rfl, alikeItems_trans xs hxs hys⟩
  | .table xs =>
    obtain ⟨ys, rfl, hlength, hxs⟩ := alike_table_iff.1 hxy
    obtain ⟨zs, rfl, hlength', hys⟩ := alike_table_iff.1 hyz
    exact alike_table_iff.2 ⟨zs, rfl, hlength.trans hlength', alikeEntries_trans xs hxs hys⟩

theorem alikeItems_trans (xs : List Json) {ys zs : List Json} (hxy : alikeItems xs ys)
    (hyz : alikeItems ys zs) : alikeItems xs zs := by
  match xs, ys, zs with
  | [], [], _ => exact hyz
  | x :: xs, y :: ys, [] => simp [alikeItems] at hyz
  | x :: xs, y :: ys, z :: zs =>
    simp only [alikeItems, Bool.and_eq_true] at hxy hyz ⊢
    exact ⟨alike_trans x hxy.1 hyz.1, alikeItems_trans xs hxy.2 hyz.2⟩

theorem alikeEntries_trans (xs : List (Utf16 × Json)) {ys zs : List (Utf16 × Json)}
    (hxy : alikeEntries xs ys) (hyz : alikeEntries ys zs) : alikeEntries xs zs := by
  match xs with
  | [] => simp [alikeEntries]
  | (key, x) :: xs =>
    rw [alikeEntries_iff, List.forall_mem_cons] at hxy
    obtain ⟨⟨y, hy, hxy⟩, hrest⟩ := hxy
    obtain ⟨z, hz, hyz'⟩ := alikeEntries_iff.1 hyz (key, y) (Table.mem_of_get? hy)
    have hxs : alikeEntries xs zs := alikeEntries_trans xs (alikeEntries_iff.2 hrest) hyz
    rw [alikeEntries_iff, List.forall_mem_cons]
    exact ⟨⟨z, hz, alike_trans x hxy hyz'⟩, alikeEntries_iff.1 hxs⟩
end

-- ---------------------------------------------------------------------------
-- Reflexivity
-- ---------------------------------------------------------------------------

mutual
/-- No table in the value has a key twice. -/
def hasDistinctKeys : Json → Bool
  | .list items => haveDistinctKeys items
  | .table entries => (Table.keys entries).Nodup && entriesHaveDistinctKeys entries
  | _ => true

def haveDistinctKeys : List Json → Bool
  | [] => true
  | item :: items => hasDistinctKeys item && haveDistinctKeys items

def entriesHaveDistinctKeys : List (Utf16 × Json) → Bool
  | [] => true
  | (_, value) :: entries => hasDistinctKeys value && entriesHaveDistinctKeys entries
end

theorem haveDistinctKeys_iff {items : List Json} :
    haveDistinctKeys items ↔ ∀ item ∈ items, hasDistinctKeys item := by
  induction items with
  | nil => simp [haveDistinctKeys]
  | cons item items ih => rw [haveDistinctKeys, Bool.and_eq_true, ih, List.forall_mem_cons]

mutual
/-- A table is alike itself only where the first entry for each key is the only one. -/
theorem alike_refl (x : Json) (h : x.hasDistinctKeys) : alike x x := by
  match x with
  | .null => exact alike_null_iff.2 rfl
  | .text s => exact alike_text_iff.2 rfl
  | .bool a => exact (alike_of_asNumber? rfl).2 ⟨_, rfl, rfl⟩
  | .number m => exact (alike_of_asNumber? rfl).2 ⟨_, rfl, rfl⟩
  | .list xs =>
    rw [hasDistinctKeys] at h
    exact alike_list_iff.2 ⟨xs, rfl, alikeItems_refl xs h⟩
  | .table xs =>
    rw [hasDistinctKeys, Bool.and_eq_true, decide_eq_true_eq] at h
    refine alike_table_iff.2 ⟨xs, rfl, rfl, alikeEntries_iff.2 fun entry hentry => ?_⟩
    exact ⟨entry.2, Table.get?_of_mem h.1 hentry, alike_refl_of_mem xs h.2 entry hentry⟩

theorem alikeItems_refl (xs : List Json) (h : haveDistinctKeys xs) : alikeItems xs xs := by
  match xs with
  | [] => rfl
  | x :: xs =>
    rw [haveDistinctKeys, Bool.and_eq_true] at h
    rw [alikeItems, Bool.and_eq_true]
    exact ⟨alike_refl x h.1, alikeItems_refl xs h.2⟩

theorem alike_refl_of_mem (xs : List (Utf16 × Json)) (h : entriesHaveDistinctKeys xs) :
    ∀ entry ∈ xs, alike entry.2 entry.2 := by
  match xs with
  | [] => exact List.forall_mem_nil _
  | (key, x) :: xs =>
    rw [entriesHaveDistinctKeys, Bool.and_eq_true] at h
    exact List.forall_mem_cons.2 ⟨alike_refl x h.1, alike_refl_of_mem xs h.2⟩
end

-- ---------------------------------------------------------------------------
-- Values that are read
-- ---------------------------------------------------------------------------

theorem entriesHaveDistinctKeys_iff {entries : List (Utf16 × Json)} :
    entriesHaveDistinctKeys entries ↔ ∀ entry ∈ entries, entry.2.hasDistinctKeys := by
  induction entries with
  | nil => simp [entriesHaveDistinctKeys]
  | cons entry entries ih =>
    rw [entriesHaveDistinctKeys, Bool.and_eq_true, ih, List.forall_mem_cons]

/-- Of entries for one key only the last is kept. -/
theorem hasDistinctKeys_ofList {entries : List (Utf16 × Json)}
    (h : ∀ entry ∈ entries, entry.2.hasDistinctKeys) :
    (Json.table (Table.ofList entries)).hasDistinctKeys := by
  rw [hasDistinctKeys, Bool.and_eq_true, decide_eq_true_eq, entriesHaveDistinctKeys_iff]
  exact ⟨Table.nodup_keys_ofList entries,
    Table.forall_mem_update (P := fun value : Json => value.hasDistinctKeys = true)
      (List.forall_mem_nil _) h⟩

theorem hasDistinctKeys_of_readScalar {cs rest : List Char} {value : Json}
    (h : readScalar cs = .ok (value, rest)) : value.hasDistinctKeys := by
  unfold readScalar at h
  split at h
  · next found hfound =>
    obtain ⟨word, hword, heq⟩ := List.exists_of_findSome?_eq_some hfound
    obtain ⟨after, -, rfl⟩ := Option.map_eq_some_iff.1 heq
    obtain rfl : word.2 = value := congrArg Prod.fst (Except.ok.inj h)
    have hwords : ∀ word ∈ words, word.2.hasDistinctKeys := by
      simp only [words, List.forall_mem_cons]
      simp [hasDistinctKeys]
    exact hwords word hword
  · split at h
    · cases hnumber : readUnsigned true _ <;> rw [hnumber] at h <;> cases h
      rfl
    · cases hnumber : readUnsigned false _ <;> rw [hnumber] at h <;> cases h
      rfl

mutual
theorem hasDistinctKeys_of_readValue (fuel : Nat) {depth : Nat} {cs rest : List Char} {value : Json}
    (h : readValue fuel depth cs = .ok (value, rest)) : value.hasDistinctKeys := by
  match fuel with
  | 0 => cases h
  | fuel + 1 =>
    unfold readValue at h
    split at h
    · next quoted =>
      cases htext : readText [] quoted <;> rw [htext] at h <;> cases h
      rfl
    · split at h
      · cases h
      · split at h
        · cases h
          rfl
        · exact hasDistinctKeys_of_readItems fuel (List.forall_mem_nil _) h
    · split at h
      · cases h
      · split at h
        · cases h
          rfl
        · exact hasDistinctKeys_of_readEntries fuel (List.forall_mem_nil _) h
    · exact hasDistinctKeys_of_readScalar h

theorem hasDistinctKeys_of_readItems (fuel : Nat) {depth : Nat} {done : List Json}
    {cs rest : List Char} {value : Json} (hdone : ∀ item ∈ done, item.hasDistinctKeys)
    (h : readItems fuel depth done cs = .ok (value, rest)) : value.hasDistinctKeys := by
  match fuel with
  | 0 => cases h
  | fuel + 1 =>
    unfold readItems at h
    split at h
    · cases h
    · next item after hitem =>
      have hdone : ∀ other ∈ item :: done, other.hasDistinctKeys :=
        List.forall_mem_cons.2 ⟨hasDistinctKeys_of_readValue fuel hitem, hdone⟩
      split at h
      · exact hasDistinctKeys_of_readItems fuel hdone h
      · cases h
        rw [hasDistinctKeys, haveDistinctKeys_iff]
        exact fun other hother => hdone other (List.mem_reverse.1 hother)
      · cases h

theorem hasDistinctKeys_of_readEntries (fuel : Nat) {depth : Nat} {done : List (Utf16 × Json)}
    {cs rest : List Char} {value : Json} (hdone : ∀ entry ∈ done, entry.2.hasDistinctKeys)
    (h : readEntries fuel depth done cs = .ok (value, rest)) : value.hasDistinctKeys := by
  match fuel with
  | 0 => cases h
  | fuel + 1 =>
    unfold readEntries at h
    split at h
    · split at h
      · cases h
      · next key colon hkey =>
        split at h
        · split at h
          · cases h
          · next found after hfound =>
            have hdone : ∀ entry ∈ (key, found) :: done, entry.2.hasDistinctKeys :=
              List.forall_mem_cons.2 ⟨hasDistinctKeys_of_readValue fuel hfound, hdone⟩
            split at h
            · exact hasDistinctKeys_of_readEntries fuel hdone h
            · cases h
              exact hasDistinctKeys_ofList fun entry hentry => hdone entry (List.mem_reverse.1 hentry)
            · cases h
        · cases h
    · cases h
end

/-- No document has a table with a key twice. -/
theorem hasDistinctKeys_of_parseWithin {depth : Nat} {text : List Char} {value : Json}
    (h : parseWithin depth text = .ok value) : value.hasDistinctKeys := by
  unfold parseWithin at h
  obtain ⟨⟨found, rest⟩, hfound, h⟩ := exists_eq_ok_of_bind h
  dsimp only at h
  split at h
  · cases h
    exact hasDistinctKeys_of_readValue _ hfound
  · cases h

end Json

end FlakeLint
