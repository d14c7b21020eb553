-- SUMMARY: Laws of ordered tables: which keys a table has, and when writing reproduces a table.
import FlakeLint.Table
import Mathlib.Data.List.Basic
import Mathlib.Data.List.Nodup

/-!
# Laws of ordered tables

Writing keeps the keys that are there in their places, so it never makes a key
occur twice. What is written under a new key can be erased again. A table whose keys
are all different is reproduced when its entries are written one by one over a table
that has the first of its keys.
-/

namespace FlakeLint.Table

variable {κ α : Type} {table newer : Table κ α} {key : κ} {value : α}

-- ---------------------------------------------------------------------------
-- Keys
-- ---------------------------------------------------------------------------

@[simp] theorem keys_nil : keys ([] : Table κ α) = [] := rfl

@[simp] theorem keys_cons (entry : κ × α) (rest : Table κ α) :
    keys (entry :: rest) = entry.1 :: keys rest := rfl

@[simp] theorem keys_append (first second : Table κ α) :
    keys (first ++ second) = keys first ++ keys second :=
  List.map_append

variable [DecidableEq κ]

theorem keys_prefix_put : keys table <+: keys (table.put key value) := by
  rw [keys_put]
  split
  · exact List.prefix_rfl
  · exact List.prefix_append _ _

theorem mem_keys_put {other : κ} :
    other ∈ keys (table.put key value) ↔ other ∈ keys table ∨ key = other := by
  rw [keys_put, eq_comm (a := key)]
  split
  · next hkey => exact ⟨.inl, fun h => h.elim id (· ▸ hkey)⟩
  · rw [List.mem_append, List.mem_singleton]

theorem nodup_keys_put (h : (keys table).Nodup) : (keys (table.put key value)).Nodup := by
  rw [keys_put]
  split
  · exact h
  · next hkey => exact List.nodup_append_comm.1 (List.nodup_cons.2 ⟨hkey, h⟩)

theorem keys_prefix_update : keys table <+: keys (table.update newer) := by
  induction newer generalizing table with
  | nil => exact List.prefix_rfl
  | cons entry rest ih => exact keys_prefix_put.trans ih

theorem nodup_keys_update (h : (keys table).Nodup) : (keys (table.update newer)).Nodup := by
  induction newer generalizing table with
  | nil => exact h
  | cons entry rest ih => exact ih (nodup_keys_put h)

theorem nodup_keys_ofList (entries : List (κ × α)) : (keys (ofList entries)).Nodup :=
  nodup_keys_update List.nodup_nil

omit [DecidableEq κ] in
/-- The keys after a number of steps, each of which may add some. -/
theorem mem_keys_foldl {ι : Type} {step : Table κ α → ι → Table κ α} {adds : ι → κ → Prop}
    (hstep : ∀ table item other, other ∈ keys (step table item) ↔ other ∈ keys table ∨ adds item other)
    (items : List ι) (start : Table κ α) (other : κ) :
    other ∈ keys (items.foldl step start) ↔ other ∈ keys start ∨ ∃ item ∈ items, adds item other := by
  induction items generalizing start with
  | nil => simp
  | cons item items ih => rw [List.foldl_cons, ih, hstep, or_assoc, List.exists_mem_cons_iff]

-- ---------------------------------------------------------------------------
-- Entries
-- ---------------------------------------------------------------------------

theorem mem_of_get? (h : get? table key = some value) : (key, value) ∈ table := by
  obtain ⟨⟨name, found⟩, hfound, rfl⟩ := Option.map_eq_some_iff.1 h
  have hname : name = key := by simpa using List.find?_some hfound
  exact hname ▸ List.mem_of_find?_eq_some hfound

theorem get?_eq_none (h : key ∉ keys table) : get? table key = none := by
  by_contra hsome
  obtain ⟨value, hvalue⟩ := Option.ne_none_iff_exists'.1 hsome
  exact h (List.mem_map_of_mem (mem_of_get? hvalue))

theorem exists_get?_of_mem_keys (h : key ∈ keys table) : ∃ value, get? table key = some value := by
  obtain ⟨entry, hmem, rfl⟩ := List.mem_map.1 h
  unfold get?
  rw [← Option.isSome_iff_exists, Option.isSome_map, List.find?_isSome]
  exact ⟨entry, hmem, decide_eq_true rfl⟩

theorem forall_mem_put {P : α → Prop} (htable : ∀ entry ∈ table, P entry.2) (hvalue : P value) :
    ∀ entry ∈ table.put key value, P entry.2 := by
  induction table with
  | nil => simpa [put] using hvalue
  | cons first rest ih =>
    rw [List.forall_mem_cons] at htable
    unfold put
    split
    · exact List.forall_mem_cons.2 ⟨hvalue, htable.2⟩
    · exact List.forall_mem_cons.2 ⟨htable.1, ih htable.2⟩

theorem forall_mem_update {P : α → Prop} (htable : ∀ entry ∈ table, P entry.2)
    (hnewer : ∀ entry ∈ newer, P entry.2) : ∀ entry ∈ table.update newer, P entry.2 := by
  induction newer generalizing table with
  | nil => exact htable
  | cons first rest ih =>
    rw [List.forall_mem_cons] at hnewer
    exact ih (forall_mem_put htable hnewer.1) hnewer.2

theorem get?_of_mem {entry : κ × α} (hnodup : (keys table).Nodup) (h : entry ∈ table) :
    get? table entry.1 = some entry.2 := by
  induction table with
  | nil => simp at h
  | cons first rest ih =>
    rw [keys_cons, List.nodup_cons] at hnodup
    rcases List.mem_cons.1 h with rfl | hrest
    · simp [get?_cons]
    · have hfirst : first.1 ≠ entry.1 := fun heq => hnodup.1 (heq ▸ List.mem_map_of_mem hrest)
      simp [get?_cons, hfirst, ih hnodup.2 hrest]

-- ---------------------------------------------------------------------------
-- Tables that are reproduced
-- ---------------------------------------------------------------------------

theorem put_eq_self (h : get? table key = some value) : table.put key value = table := by
  induction table with
  | nil => cases h
  | cons entry rest ih =>
    rw [get?_cons] at h
    unfold put
    split at h
    · next hkey =>
      obtain rfl := Option.some_inj.1 h
      rw [if_pos hkey, ← hkey]
    · next hkey => rw [if_neg hkey, ih h]

theorem put_put_self (table : Table κ α) (key : κ) (old new : α) :
    (table.put key old).put key new = table.put key new := by
  induction table with
  | nil => simp [put]
  | cons entry rest ih => by_cases hkey : entry.1 = key <;> simp [put, hkey, ih]

/-- What was put under a new key can be taken away again. -/
theorem erase_put (h : get? table key = none) (value : α) : erase (table.put key value) key = table := by
  induction table with
  | nil => simp [put, erase]
  | cons entry rest ih =>
    rw [get?_cons] at h
    split at h
    · cases h
    · next hkey =>
      rw [put, if_neg hkey, erase, List.filter_cons_of_pos (by simpa using hkey)]
      exact congrArg _ (ih h)

/-- A table without a repeated key is known by its keys and what is found under them. -/
theorem eq_map_of_keys {ι : Type} {names : List ι} {name : ι → κ} {found : ι → α}
    (hkeys : keys table = names.map name) (hnodup : (names.map name).Nodup)
    (hfound : ∀ i ∈ names, get? table (name i) = some (found i)) :
    table = names.map fun i => (name i, found i) := by
  induction names generalizing table with
  | nil => exact List.map_eq_nil_iff.1 hkeys
  | cons i names ih =>
    obtain ⟨first, rest, rfl, hfirst, hrest⟩ := List.map_eq_cons_iff.1 hkeys
    rw [List.map_cons, List.nodup_cons] at hnodup
    rw [List.forall_mem_cons] at hfound
    have hvalue : first.2 = found i := by simpa [get?_cons, hfirst] using hfound.1
    have hothers : ∀ j ∈ names, get? rest (name j) = some (found j) := by
      intro j hj
      have hother : first.1 ≠ name j := fun heq =>
        hnodup.1 (hfirst ▸ heq ▸ List.mem_map_of_mem hj)
      simpa [get?_cons, hother] using hfound.2 j hj
    rw [List.map_cons, ih hrest hnodup.2 hothers, ← hfirst, ← hvalue]

theorem put_append_of_not_mem {before : Table κ α} (h : key ∉ keys before) (rest : Table κ α) :
    put (before ++ rest) key value = before ++ put rest key value := by
  induction before with
  | nil => rfl
  | cons entry before ih =>
    rw [keys_cons, List.mem_cons, not_or] at h
    simp [put, Ne.symm h.1, ih h.2]

theorem update_cons (entry : κ × α) (rest : Table κ α) :
    table.update (entry :: rest) = (table.put entry.1 entry.2).update rest := rfl

/-- Writing goes on behind the entries of `before`: there, the entries of `old` are replaced. -/
theorem update_append_eq (before : Table κ α) {old : Table κ α} (hkeys : keys old <+: keys newer)
    (hnodup : (keys (before ++ newer)).Nodup) :
    update (before ++ old) newer = before ++ newer := by
  induction newer generalizing before old with
  | nil =>
    have hold : old = [] := by simpa [keys] using hkeys
    simp [update, hold]
  | cons entry rest ih =>
    have hbefore : entry.1 ∉ keys before := by
      rw [keys_append, List.nodup_append] at hnodup
      exact fun hmem => hnodup.2.2 _ hmem _ List.mem_cons_self rfl
    have hput : ∃ old', put old entry.1 entry.2 = entry :: old' ∧ keys old' <+: keys rest := by
      cases old with
      | nil => exact ⟨[], rfl, List.nil_prefix⟩
      | cons first old' =>
        rw [keys_cons, keys_cons, List.cons_prefix_cons] at hkeys
        exact ⟨old', by simp [put, hkeys.1], hkeys.2⟩
    obtain ⟨old', hput, hold'⟩ := hput
    have hnext := ih (before ++ [entry]) hold' (by simpa using hnodup)
    rw [update_cons, put_append_of_not_mem hbefore, hput]
    simpa using hnext

/-- A table is reproduced over a table that has the first of its keys. -/
theorem update_eq_of_keys_prefix {old : Table κ α} (hkeys : keys old <+: keys newer)
    (hnodup : (keys newer).Nodup) : update old newer = newer :=
  update_append_eq [] hkeys hnodup

theorem ofList_eq_self (h : (keys table).Nodup) : ofList table = table :=
  update_eq_of_keys_prefix List.nil_prefix h

-- ---------------------------------------------------------------------------
-- Keys that are written more than once
-- ---------------------------------------------------------------------------

/-- The value of the last entry for a key. -/
def last? (entries : List (κ × α)) (key : κ) : Option α :=
  get? entries.reverse key

theorem get?_append (first second : Table κ α) (key : κ) :
    get? (first ++ second) key = (first.get? key).or (second.get? key) := by
  induction first with
  | nil => rfl
  | cons entry first ih =>
    rw [List.cons_append, get?_cons, get?_cons, ih]
    split <;> rfl

/-- What was written last is found, and where nothing was written, what was there before. -/
theorem get?_update (table newer : Table κ α) (key : κ) :
    (table.update newer).get? key = (last? newer key).or (table.get? key) := by
  induction newer generalizing table with
  | nil => rfl
  | cons entry rest ih =>
    have hput : (table.put entry.1 entry.2).get? key =
        (get? [entry] key).or (table.get? key) := by
      rw [get?_cons]
      split
      · next hkey => rw [← hkey, get?_put_self, Option.some_or]
      · next hkey => rw [get?_put_of_ne _ _ (Ne.symm hkey), get?_nil, Option.none_or]
    rw [update_cons, ih, hput, last?, last?, List.reverse_cons, get?_append, Option.or_assoc]

/-- Where no key is written more than once, the last entry for a key is the first one. -/
theorem last?_eq_get? {entries : List (κ × α)} (h : (keys entries).Nodup) (key : κ) :
    last? entries key = get? entries key := by
  have hreverse : (keys entries.reverse).Nodup := by
    rw [keys, List.map_reverse]
    exact List.nodup_reverse.2 h
  have hmem {first second : Table κ α} (hsecond : (keys second).Nodup)
      (hsub : ∀ entry ∈ first, entry ∈ second) {value : α} (hvalue : get? first key = some value) :
      get? second key = some value :=
    get?_of_mem hsecond (hsub _ (mem_of_get? hvalue))
  exact Option.ext fun value =>
    ⟨hmem h fun _ => List.mem_reverse.1, hmem hreverse fun _ => List.mem_reverse.2⟩

/-- Nothing changes if everything that is written is there already. -/
theorem update_eq_self (h : ∀ entry ∈ newer, get? table entry.1 = some entry.2) :
    table.update newer = table := by
  induction newer with
  | nil => rfl
  | cons entry rest ih =>
    rw [List.forall_mem_cons] at h
    rw [update_cons, put_eq_self h.1, ih h.2]

theorem get?_ofList (entries : List (κ × α)) (key : κ) :
    (ofList entries).get? key = last? entries key := by
  rw [ofList, get?_update, get?_nil, Option.or_none]

/-- New keys come behind the old ones, each where it is first written. -/
theorem keys_update (table newer : Table κ α) : keys (table.update newer) =
    keys table ++ ((keys newer).filter fun key => key ∉ keys table).eraseDups := by
  induction newer generalizing table with
  | nil => simp [update]
  | cons entry rest ih =>
    rw [update_cons, ih, keys_put, keys_cons]
    split
    · next hkey => rw [List.filter_cons_of_neg (by simpa using hkey)]
    · next hkey =>
      have hfilter : (fun other => decide (other ∉ keys table ++ [entry.1])) =
          fun other => !(other == entry.1) && decide (other ∉ keys table) := by
        funext other
        rw [Bool.eq_iff_iff]
        simp [and_comm]
      rw [List.filter_cons_of_pos (by simpa using hkey), List.eraseDups_cons, List.filter_filter,
        List.append_assoc, List.singleton_append, hfilter]

theorem keys_ofList (entries : List (κ × α)) : keys (ofList entries) = (keys entries).eraseDups := by
  rw [ofList, keys_update]
  simp

theorem nodup_eraseDups {ι : Type} [BEq ι] [LawfulBEq ι] (xs : List ι) : xs.eraseDups.Nodup := by
  induction hlength : xs.length using Nat.strongRecOn generalizing xs with
  | ind length ih =>
    cases xs with
    | nil => exact List.nodup_nil
    | cons x xs =>
      have hshorter : (xs.filter fun y => !y == x).length < length := by
        rw [← hlength]
        exact Nat.lt_succ_of_le (List.length_filter_le _ _)
      rw [List.eraseDups_cons, List.nodup_cons]
      refine ⟨fun hmem => ?_, ih _ hshorter _ rfl⟩
      have hkept := (List.mem_filter.1 (List.mem_eraseDups.1 hmem)).2
      simp at hkept

-- ---------------------------------------------------------------------------
-- Other values under the same keys
-- ---------------------------------------------------------------------------

variable {β : Type}

def mapValues (f : α → β) (table : Table κ α) : Table κ β :=
  table.map fun entry => (entry.1, f entry.2)

theorem get?_mapValues (f : α → β) (table : Table κ α) (key : κ) :
    get? (mapValues f table) key = (table.get? key).map f := by
  induction table with
  | nil => rfl
  | cons entry rest ih =>
    rw [get?_cons, apply_ite (Option.map f), ← ih]
    exact get?_cons _ _ _

theorem put_mapValues (f : α → β) (table : Table κ α) (key : κ) (value : α) :
    put (mapValues f table) key (f value) = mapValues f (table.put key value) := by
  induction table with
  | nil => rfl
  | cons entry rest ih =>
    by_cases hkey : entry.1 = key
    · simp [mapValues, put, hkey]
    · simpa [mapValues, put, hkey] using ih

end FlakeLint.Table
