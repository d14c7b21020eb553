-- SUMMARY: What lies in the bucket of a test, and that buckets are a partition.
import FlakeLint.Analysis.TestBlock
import FlakeLint.Proofs.Table
import FlakeLint.Score
import Mathlib.Data.List.Enum
import Mathlib.Data.List.Nodup
import Mathlib.Data.List.Perm.Basic

/-!
# Buckets

The bucket of an index holds exactly the things whose line is charged to the block
with that index, in the order in which they came. A line is charged to the first
block that it lies in, so however blocks overlap, nothing is in two buckets.
-/

namespace FlakeLint

namespace TestBlock

variable {α β : Type}

-- ---------------------------------------------------------------------------
-- The block that a line is charged to
-- ---------------------------------------------------------------------------

/-- The lines of a block. -/
def Spans (block : TestBlock) (line : Int) : Prop :=
  block.startLine ≤ line ∧ line ≤ block.endLine

instance (block : TestBlock) (line : Int) : Decidable (block.Spans line) :=
  inferInstanceAs (Decidable (_ ∧ _))

theorem contains_iff (block : TestBlock) (line : Int) : block.contains line ↔ block.Spans line := by
  unfold contains Spans
  simp

/-- The line lies in the block and in none that stands before it in the list. -/
def IsFirstAt (blocks : List TestBlock) (line : Int) (block : TestBlock) : Prop :=
  ∃ before after, blocks = before ++ block :: after ∧ block.Spans line ∧
    ∀ earlier ∈ before, ¬ earlier.Spans line

/-- There is a line, and the first block that it lies in has the index. -/
def IsChargedTo (blocks : List TestBlock) (line : Option Int) (index : Int) : Prop :=
  ∃ number block, line = some number ∧ IsFirstAt blocks number block ∧ block.index = index

theorem indexFor?_eq_some_iff {blocks : List TestBlock} {line : Option Int} {index : Int} :
    indexFor? blocks line = some index ↔ IsChargedTo blocks line index := by
  simp only [indexFor?, Option.bind_eq_some_iff, Option.map_eq_some_iff,
    List.find?_eq_some_iff_append, contains_iff, Bool.not_eq_true', ← Bool.not_eq_true]
  constructor
  · rintro ⟨number, rfl, block, ⟨hline, before, after, rfl, hbefore⟩, rfl⟩
    exact ⟨number, block, rfl, ⟨before, after, rfl, hline, hbefore⟩, rfl⟩
  · rintro ⟨number, block, rfl, ⟨before, after, rfl, hline, hbefore⟩, rfl⟩
    exact ⟨number, rfl, block, ⟨hline, before, after, rfl, hbefore⟩, rfl⟩

theorem indexFor?_eq_none_iff {blocks : List TestBlock} {line : Option Int} :
    indexFor? blocks line = none ↔
      line = none ∨ ∃ number, line = some number ∧ ∀ block ∈ blocks, ¬ block.Spans number := by
  cases line <;> simp [indexFor?, contains_iff]

theorem IsChargedTo.index_mem {blocks : List TestBlock} {line : Option Int} {index : Int}
    (h : IsChargedTo blocks line index) : index ∈ blocks.map TestBlock.index := by
  obtain ⟨number, block, rfl, ⟨before, after, rfl, -, -⟩, rfl⟩ := h
  simp

-- ---------------------------------------------------------------------------
-- What lies in a bucket
-- ---------------------------------------------------------------------------

variable (lineOf : α → Option Int) (blocks : List TestBlock)

/-- The buckets with one thing more. -/
def charge (buckets : Table Int (List α)) (item : α) : Table Int (List α) :=
  match indexFor? blocks (lineOf item) with
  | some index => buckets.put index (((buckets.get? index).getD []) ++ [item])
  | none => buckets

theorem getD_get?_charge (buckets : Table Int (List α)) (item : α) (index : Int) :
    ((charge lineOf blocks buckets item).get? index).getD [] =
      (buckets.get? index).getD [] ++
        if indexFor? blocks (lineOf item) == some index then [item] else [] := by
  unfold charge
  cases indexFor? blocks (lineOf item) with
  | none => simp
  | some found =>
    by_cases hfound : found = index
    · subst hfound
      rw [if_pos (by simp), Table.get?_put_self, Option.getD_some]
    · have hother : index ≠ found := fun h => hfound h.symm
      rw [if_neg (by simpa using hfound), Table.get?_put_of_ne _ _ hother, List.append_nil]

theorem getD_get?_bucketsBy (items : List α) (index : Int) :
    ((bucketsBy lineOf blocks items).get? index).getD [] =
      items.filter fun item => indexFor? blocks (lineOf item) == some index := by
  -- Buckets only grow: what was in one before stays in front.
  have hgrow (start : Table Int (List α)) :
      ((items.foldl (charge lineOf blocks) start).get? index).getD [] =
        (start.get? index).getD [] ++
          items.filter fun item => indexFor? blocks (lineOf item) == some index := by
    induction items generalizing start with
    | nil => rw [List.foldl_nil, List.filter_nil, List.append_nil]
    | cons item items ih =>
      rw [List.foldl_cons, ih, getD_get?_charge, List.append_assoc, List.filter_cons]
      split <;> rfl
  exact hgrow []

-- ---------------------------------------------------------------------------
-- Which buckets there are
-- ---------------------------------------------------------------------------

theorem mem_keys_charge (buckets : Table Int (List α)) (item : α) (index : Int) :
    index ∈ (charge lineOf blocks buckets item).keys ↔
      index ∈ buckets.keys ∨ indexFor? blocks (lineOf item) = some index := by
  unfold charge
  cases indexFor? blocks (lineOf item) with
  | none => simp
  | some found => rw [Table.mem_keys_put, Option.some_inj]

theorem mem_keys_bucketsBy (items : List α) (index : Int) :
    index ∈ (bucketsBy lineOf blocks items).keys ↔
      ∃ item ∈ items, IsChargedTo blocks (lineOf item) index := by
  have hstep : ∀ buckets item index, index ∈ (charge lineOf blocks buckets item).keys ↔
      index ∈ buckets.keys ∨ IsChargedTo blocks (lineOf item) index := by
    intro buckets item index
    rw [mem_keys_charge, indexFor?_eq_some_iff]
  exact (Table.mem_keys_foldl hstep items [] index).trans (or_iff_right List.not_mem_nil)

theorem nodup_keys_bucketsBy (items : List α) : (bucketsBy lineOf blocks items).keys.Nodup := by
  refine List.foldlRecOn (motive := fun buckets => (Table.keys buckets).Nodup) items
    (charge lineOf blocks) List.nodup_nil fun buckets hnodup item _ => ?_
  unfold charge
  split
  · exact Table.nodup_keys_put hnodup
  · exact hnodup

theorem snd_of_mem_bucketsBy {items : List α} {bucket : Int × List α}
    (h : bucket ∈ bucketsBy lineOf blocks items) :
    bucket.2 = items.filter fun item => indexFor? blocks (lineOf item) == some bucket.1 := by
  rw [← getD_get?_bucketsBy, Table.get?_of_mem (nodup_keys_bucketsBy lineOf blocks items) h,
    Option.getD_some]

theorem charge_mapValues (name : β → α) (buckets : Table Int (List β)) (item : β) :
    charge lineOf blocks (buckets.mapValues (List.map name)) (name item) =
      (charge (lineOf ∘ name) blocks buckets item).mapValues (List.map name) := by
  unfold charge
  rw [Function.comp_apply]
  cases indexFor? blocks (lineOf (name item)) with
  | none => rfl
  | some index =>
    simp only [Table.get?_mapValues, ← Table.put_mapValues]
    cases Table.get? buckets index <;> simp

/-- What is put into the buckets in place of the things makes no difference to where it goes. -/
theorem bucketsBy_map (name : β → α) (items : List β) :
    bucketsBy lineOf blocks (items.map name) =
      (bucketsBy (lineOf ∘ name) blocks items).mapValues (List.map name) := by
  change (items.map name).foldl (charge lineOf blocks) (Table.mapValues (List.map name) []) =
    Table.mapValues (List.map name) (items.foldl (charge (lineOf ∘ name) blocks) [])
  rw [List.foldl_map]
  exact List.foldl_hom _ (charge_mapValues lineOf blocks name)

-- ---------------------------------------------------------------------------
-- Buckets are a partition
-- ---------------------------------------------------------------------------

theorem nodup_zipIdx (items : List α) : items.zipIdx.Nodup := by
  refine List.Nodup.of_map Prod.snd ?_
  rw [List.zipIdx_map_snd]
  exact List.nodup_range'

/-- The buckets with the places of the things. -/
def numberedBy (items : List α) : Table Int (List (α × Nat)) :=
  bucketsBy (lineOf ∘ Prod.fst) blocks items.zipIdx

theorem bucketsBy_eq_numberedBy (items : List α) :
    bucketsBy lineOf blocks items =
      (numberedBy lineOf blocks items).mapValues (List.map Prod.fst) := by
  unfold numberedBy
  rw [← bucketsBy_map, List.zipIdx_map_fst]

section Numbered

variable {lineOf : α → Option Int} {blocks : List TestBlock} {items : List α}

theorem mem_keys_numberedBy (index : Int) : index ∈ (numberedBy lineOf blocks items).keys ↔
    ∃ item ∈ items, IsChargedTo blocks (lineOf item) index := by
  rw [numberedBy, mem_keys_bucketsBy, List.exists_mem_zipIdx', List.exists_mem_iff_getElem]
  rfl

theorem sublist_of_mem_numberedBy {bucket : Int × List (α × Nat)}
    (h : bucket ∈ numberedBy lineOf blocks items) : bucket.2.Sublist items.zipIdx :=
  snd_of_mem_bucketsBy _ _ h ▸ List.filter_sublist

theorem mem_bucket_iff {bucket : Int × List (α × Nat)} {item : α × Nat}
    (h : bucket ∈ numberedBy lineOf blocks items) (hitem : item ∈ items.zipIdx) :
    item ∈ bucket.2 ↔ IsChargedTo blocks (lineOf item.1) bucket.1 := by
  rw [snd_of_mem_bucketsBy _ _ h, List.mem_filter, and_iff_right hitem, beq_iff_eq,
    indexFor?_eq_some_iff, Function.comp_apply]

theorem mem_flatMap_numberedBy {item : α × Nat} (hitem : item ∈ items.zipIdx) :
    item ∈ (numberedBy lineOf blocks items).flatMap Prod.snd ↔
      ∃ index, IsChargedTo blocks (lineOf item.1) index := by
  rw [List.mem_flatMap]
  constructor
  · rintro ⟨bucket, h, hmem⟩
    exact ⟨_, (mem_bucket_iff h hitem).1 hmem⟩
  · rintro ⟨index, hcharged⟩
    have hkey : index ∈ (numberedBy lineOf blocks items).keys :=
      (mem_keys_numberedBy index).2 ⟨item.1, List.fst_mem_of_mem_zipIdx hitem, hcharged⟩
    obtain ⟨bucket, h, rfl⟩ := List.mem_map.1 hkey
    exact ⟨bucket, h, (mem_bucket_iff h hitem).2 hcharged⟩

/-- A thing has one line, and a line is charged to one index. -/
theorem nodup_flatMap_numberedBy : ((numberedBy lineOf blocks items).flatMap Prod.snd).Nodup := by
  refine List.nodup_flatMap.2
    ⟨fun bucket h => (nodup_zipIdx items).sublist (sublist_of_mem_numberedBy h), ?_⟩
  have hkeys : (numberedBy lineOf blocks items).Pairwise fun bucket other => bucket.1 ≠ other.1 :=
    List.pairwise_map.1 (nodup_keys_bucketsBy _ _ _)
  refine hkeys.imp_of_mem fun {bucket other} h hother hne item hmem hmem' => hne ?_
  have hitem := (sublist_of_mem_numberedBy h).subset hmem
  have hindex := indexFor?_eq_some_iff.2 ((mem_bucket_iff h hitem).1 hmem)
  have hindex' := indexFor?_eq_some_iff.2 ((mem_bucket_iff hother hitem).1 hmem')
  exact Option.some_inj.1 (hindex.symm.trans hindex')

end Numbered

/-- Buckets of things, each with its place in the list of all, that split the things by the first block
that their line lies in. -/
structure IsPartition (items : List α) (buckets : Table Int (List (α × Nat))) : Prop where
  /-- There is at most one bucket for an index. -/
  nodup_keys : buckets.keys.Nodup
  /-- There is one if something is charged to the index. -/
  mem_keys_iff (index : Int) :
    index ∈ buckets.keys ↔ ∃ item ∈ items, IsChargedTo blocks (lineOf item) index
  /-- A bucket keeps the order of the things. -/
  sublist : ∀ bucket ∈ buckets, bucket.2.Sublist items.zipIdx
  /-- It holds exactly what is charged to its index. -/
  mem_bucket_iff : ∀ bucket ∈ buckets, ∀ item ∈ items.zipIdx,
    item ∈ bucket.2 ↔ IsChargedTo blocks (lineOf item.1) bucket.1
  /-- Nothing is in two buckets, or in one of them twice. -/
  nodup : (buckets.flatMap Prod.snd).Nodup
  /-- What has no line, or one in no block, is in none. -/
  not_mem_iff : ∀ item ∈ items.zipIdx, item ∉ buckets.flatMap Prod.snd ↔
    lineOf item.1 = none ∨
      ∃ line, lineOf item.1 = some line ∧ ∀ block ∈ blocks, ¬ block.Spans line

theorem isPartition_numberedBy (items : List α) :
    IsPartition lineOf blocks items (numberedBy lineOf blocks items) where
  nodup_keys := nodup_keys_bucketsBy _ _ _
  mem_keys_iff := mem_keys_numberedBy
  sublist _ := sublist_of_mem_numberedBy
  mem_bucket_iff _ h _ := mem_bucket_iff h
  nodup := nodup_flatMap_numberedBy
  not_mem_iff item hitem := by
    rw [mem_flatMap_numberedBy hitem, ← indexFor?_eq_none_iff, Option.eq_none_iff_forall_ne_some]
    simp only [not_exists, ne_eq, indexFor?_eq_some_iff]

-- ---------------------------------------------------------------------------
-- Buckets and failing tests
-- ---------------------------------------------------------------------------

theorem isEmpty_bucket_eq_false_iff {items : List α} {index : Int} :
    (((bucketsBy lineOf blocks items).get? index).getD []).isEmpty = false ↔
      index ∈ (bucketsBy lineOf blocks items).keys := by
  rw [getD_get?_bucketsBy, mem_keys_bucketsBy, List.isEmpty_eq_false_iff_exists_mem]
  simp only [List.mem_filter, beq_iff_eq, indexFor?_eq_some_iff]

/-- Where blocks are numbered from zero, each bucket makes one test fail. -/
theorem failingTests_eq_length_buckets {blocks : List TestBlock} (issues : List Issue)
    (anyIssue : Bool)
    (h : (blocks.map TestBlock.index).Perm ((List.range blocks.length).map Int.ofNat)) :
    Score.failingTests (max 1 blocks.length) anyIssue (some (buckets blocks issues)) =
      (buckets blocks issues).length := by
  have hkey (index : Int) (hindex : index ∈ (buckets blocks issues).keys) :
      ∃ i < max 1 blocks.length, Int.ofNat i = index := by
    obtain ⟨issue, -, hcharged⟩ := (mem_keys_bucketsBy _ _ _ _).1 hindex
    obtain ⟨i, hi, rfl⟩ := List.mem_map.1 (h.subset hcharged.index_mem)
    exact ⟨i, Nat.lt_of_lt_of_le (List.mem_range.1 hi) (Nat.le_max_right _ _), rfl⟩
  have hperm : (((List.range (max 1 blocks.length)).filter fun i : Nat =>
      !(((buckets blocks issues).get? (Int.ofNat i)).getD []).isEmpty).map Int.ofNat).Perm
      (buckets blocks issues).keys := by
    refine (List.perm_ext_iff_of_nodup ?_ (nodup_keys_bucketsBy _ _ _)).2 fun index => ?_
    · exact (List.nodup_range.filter _).map fun _ _ => Int.ofNat.inj
    · simp only [List.mem_map, List.mem_filter, List.mem_range, Bool.not_eq_true']
      constructor
      · rintro ⟨i, ⟨-, hfull⟩, rfl⟩
        exact (isEmpty_bucket_eq_false_iff _ _).1 hfull
      · intro hindex
        obtain ⟨i, hi, rfl⟩ := hkey index hindex
        exact ⟨i, ⟨hi, (isEmpty_bucket_eq_false_iff _ _).2 hindex⟩, rfl⟩
  have hlength := hperm.length_eq
  rwa [List.length_map, Table.keys, List.length_map] at hlength

-- ---------------------------------------------------------------------------
-- The buckets of the issues of a file
-- ---------------------------------------------------------------------------

/-- However blocks overlap, issues are split by the first block that their line lies in: there is a
bucket for an index if some issue is charged to it, which keeps the order of the issues, nothing is in
two buckets or in one of them twice, and what lies in no block is in none. So when blocks are numbered
from zero, as many tests count as failing as there are buckets. -/
theorem buckets_partition (blocks : List TestBlock) (issues : List Issue) :
    ∃ numbered : Table Int (List (Issue × Nat)),
      buckets blocks issues = numbered.mapValues (List.map Prod.fst) ∧
      IsPartition Issue.line blocks issues numbered ∧
      ((blocks.map TestBlock.index).Perm ((List.range blocks.length).map Int.ofNat) →
        ∀ anyIssue, Score.failingTests (max 1 blocks.length) anyIssue
          (some (buckets blocks issues)) = (buckets blocks issues).length) :=
  ⟨numberedBy Issue.line blocks issues, bucketsBy_eq_numberedBy _ _ _,
    isPartition_numberedBy _ _ _, fun h anyIssue => failingTests_eq_length_buckets issues anyIssue h⟩

end TestBlock

namespace Sample

/-- An issue on the line, or on none. -/
def issueOn (line : Option Int) (severity : Severity) : Issue :=
  ⟨"a", severity, line.map fun line => ⟨line, none, none, none⟩, none, none, none⟩

/-- The second test starts before the first one ends. -/
def overlappingBlocks : List TestBlock := [⟨0, 1, 5⟩, ⟨1, 4, 8⟩]

end Sample

/-- An issue on a line of both tests makes the first one fail only. -/
theorem TestBlock.buckets_partition_overlapping :
    let early := Sample.issueOn (some 4) .low
    let late := Sample.issueOn (some 8) .high
    let issues := [late, early, Sample.issueOn none .low, Sample.issueOn (some 9) .low, late]
    (Sample.overlappingBlocks.map TestBlock.index).Perm ((List.range 2).map Int.ofNat) ∧
    TestBlock.buckets Sample.overlappingBlocks issues = [(1, [late, late]), (0, [early])] ∧
    Score.failingTests 2 true (some (TestBlock.buckets Sample.overlappingBlocks issues)) = 2 := by
  intro early late issues
  have hindices : (Sample.overlappingBlocks.map TestBlock.index).Perm
      ((List.range 2).map Int.ofNat) := .refl _
  obtain ⟨-, -, -, hfailing⟩ := TestBlock.buckets_partition Sample.overlappingBlocks issues
  exact ⟨hindices, by decide, hfailing hindices true⟩

end FlakeLint
