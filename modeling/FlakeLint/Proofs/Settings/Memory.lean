-- SUMMARY: How single steps in memory end, and what a table in memory shows.
import FlakeLint.Proofs.Settings.Overrides
import FlakeLint.Settings.Memory

/-!
# What memory shows

Each step in memory has a law that says how it ends and what memory it leaves. A table
in memory shows the values that its entries hold, lists by the list at their place. As
no two keys of a table hold one list, a list that is changed is changed under one key.
-/

namespace FlakeLint

namespace Doing

-- ---------------------------------------------------------------------------
-- Running
-- ---------------------------------------------------------------------------

section

variable {α β : Type} {memory : Memory} {place : Nat}

theorem run_pure (value : α) : run (pure value) memory = (.ok value, memory) := rfl

theorem run_throw (fault : Fault) : run (throw fault : Doing α) memory = (.error fault, memory) := rfl

theorem run_bind (doing : Doing α) (next : α → Doing β) :
    run (doing >>= next) memory = match run doing memory with
      | (.ok value, memory) => run (next value) memory
      | (.error fault, memory) => (.error fault, memory) := by
  simp only [run, ExceptT.run_bind, StateT.run_bind]
  generalize (ExceptT.run doing).run memory = result
  obtain ⟨fault | value, after⟩ := result <;> rfl

theorem run_listAt : run (listAt place) memory = (.ok (memory.lists.getD place []), memory) := rfl

theorem run_tableAt : run (tableAt place) memory = (.ok (memory.tables.getD place []), memory) := rfl

theorem run_newList (items : List Json) : run (newList items) memory =
    (.ok memory.lists.length, { memory with lists := memory.lists ++ [items] }) := rfl

theorem run_newTable (entries : Table Utf16 Held) : run (newTable entries) memory =
    (.ok memory.tables.length, { memory with tables := memory.tables ++ [entries] }) := rfl

theorem run_setList (items : List Json) : run (setList place items) memory =
    (.ok (), { memory with lists := memory.lists.set place items }) := rfl

theorem run_setTable (entries : Table Utf16 Held) : run (setTable place entries) memory =
    (.ok (), { memory with tables := memory.tables.set place entries }) := rfl

end

/-- Writing what is there changes nothing. -/
theorem setList_eq_self {memory : Memory} {place : Nat} {items : List Json}
    (h : memory.lists[place]? = some items) :
    { memory with lists := memory.lists.set place items } = memory := by
  obtain ⟨hplace, rfl⟩ := List.getElem?_eq_some_iff.1 h
  rw [List.set_getElem_self]

theorem run_appendNew {memory : Memory} {target : Nat} {old : List Json}
    (h : memory.lists[target]? = some old) (item : Json) : run (appendNew target item) memory =
      (.ok (), { memory with lists := memory.lists.set target (Settings.extend old [item]) }) := by
  unfold appendNew
  rw [run_bind, run_listAt, List.getD_eq_getElem?_getD, h]
  simp only [Option.getD_some, Settings.extend, List.foldl_cons, List.foldl_nil]
  split
  · rw [run_pure, setList_eq_self h]
  · rw [run_setList]

/-- Each item finds what the items before it have left of the list. -/
theorem run_forM_appendNew {memory : Memory} {target : Nat} {old : List Json}
    (h : memory.lists[target]? = some old) (items : List Json) :
    run (forM items (appendNew target)) memory =
      (.ok (), { memory with lists := memory.lists.set target (Settings.extend old items) }) := by
  induction items generalizing memory old with
  | nil =>
    rw [List.forM_nil, run_pure, Settings.extend, List.foldl_nil, setList_eq_self h]
  | cons item items ih =>
    have hset : (memory.lists.set target (Settings.extend old [item]))[target]? =
        some (Settings.extend old [item]) :=
      List.getElem?_set_self (List.getElem?_eq_some_iff.1 h).1
    rw [List.forM_cons, run_bind, run_appendNew h]
    dsimp only
    rw [ih hset, List.set_set]
    rfl

theorem run_extendList {memory : Memory} {target source : Nat} {old new : List Json}
    (htarget : memory.lists[target]? = some old) (hsource : memory.lists[source]? = some new) :
    run (extendList target source) memory =
      (.ok (), { memory with lists := memory.lists.set target (Settings.extend old new) }) := by
  unfold extendList
  rw [run_bind, run_listAt, List.getD_eq_getElem?_getD, hsource]
  exact run_forM_appendNew htarget new

end Doing

-- ---------------------------------------------------------------------------
-- What a table in memory shows
-- ---------------------------------------------------------------------------

namespace Held

/-- The value that is held. Only at a place there are lists. -/
def json? (lists : List (List Json)) : Held → Option Json
  | .listAt place => lists[place]?.map .list
  | .value (.list _) => none
  | .value json => some json

def place? : Held → Option Nat
  | .listAt place => some place
  | .value _ => none

section

variable {lists : List (List Json)} {held : Held} {place : Nat} {shown : Json}

theorem json?_listAt : json? lists (.listAt place) = some shown ↔
    ∃ items, lists[place]? = some items ∧ shown = .list items := by
  simp [json?, eq_comm]

theorem json?_value {json : Json} : json? lists (.value json) = some shown ↔
    json = shown ∧ ∀ items, shown ≠ .list items := by
  cases json with
  | list items =>
    constructor
    · intro h
      cases h
    · rintro ⟨rfl, hother⟩
      exact absurd rfl (hother items)
  | _ =>
    constructor
    · exact fun h => Option.some.inj h ▸ ⟨rfl, by simp⟩
    · rintro ⟨rfl, -⟩
      rfl

/-- What is held stays the same as long as the list at its place does. -/
theorem json?_of_getElem? {others : List (List Json)} (h : held.json? lists = some shown)
    (hlists : ∀ place, held.place? = some place → ∀ items, lists[place]? = some items →
      others[place]? = some items) :
    held.json? others = some shown := by
  cases held with
  | listAt place =>
    obtain ⟨items, hitems, rfl⟩ := json?_listAt.1 h
    exact json?_listAt.2 ⟨items, hlists place rfl items hitems, rfl⟩
  | value json => exact json?_value.2 (json?_value.1 h)

theorem lt_length_of_json? (h : held.json? lists = some shown) (hplace : held.place? = some place) :
    place < lists.length := by
  cases held with
  | listAt found =>
    cases hplace
    obtain ⟨items, hitems, -⟩ := json?_listAt.1 h
    exact (List.getElem?_eq_some_iff.1 hitems).1
  | value json => cases hplace

theorem json?_append (h : held.json? lists = some shown) (more : List (List Json)) :
    held.json? (lists ++ more) = some shown :=
  json?_of_getElem? h fun _ _ _ hitems => by
    rw [List.getElem?_append_left (List.getElem?_eq_some_iff.1 hitems).1, hitems]

end

end Held

namespace Memory

/-- The entries show values under the same keys. -/
def Shows (lists : List (List Json)) (entries : Table Utf16 Held) (shown : Table Utf16 Json) : Prop :=
  List.Forall₂ (fun entry value => entry.1 = value.1 ∧ entry.2.json? lists = some value.2)
    entries shown

/-- The places of the lists in a table. -/
def placesOf (entries : Table Utf16 Held) : List Nat :=
  entries.filterMap fun entry => entry.2.place?

/-- The table at a place shows some values. No list stands under two of its keys. -/
def HasAt (memory : Memory) (place : Nat) (shown : Table Utf16 Json) : Prop :=
  ∃ entries, memory.tables[place]? = some entries ∧ Shows memory.lists entries shown ∧
    (placesOf entries).Nodup

theorem mem_placesOf {entries : Table Utf16 Held} {place : Nat} :
    place ∈ placesOf entries ↔ ∃ entry ∈ entries, entry.2.place? = some place :=
  List.mem_filterMap

theorem placesOf_cons (entry : Utf16 × Held) (entries : Table Utf16 Held) :
    placesOf (entry :: entries) = entry.2.place?.toList ++ placesOf entries := by
  unfold placesOf
  rw [List.filterMap_cons]
  cases entry.2.place? <;> rfl

theorem placesOf_put_value_sublist (entries : Table Utf16 Held) (key : Utf16) (json : Json) :
    (placesOf (entries.put key (.value json))).Sublist (placesOf entries) := by
  induction entries with
  | nil => exact List.Sublist.refl _
  | cons entry entries ih =>
    rw [Table.put]
    split
    · rw [placesOf_cons, placesOf_cons]
      exact List.sublist_append_right _ _
    · rw [placesOf_cons, placesOf_cons]
      exact (List.append_sublist_append_left _).2 ih

theorem placesOf_put_listAt {entries : Table Utf16 Held} {key : Utf16}
    (h : entries.get? key = none) (place : Nat) :
    placesOf (entries.put key (.listAt place)) = placesOf entries ++ [place] := by
  have hkey : key ∉ Table.keys entries := by
    intro hmem
    obtain ⟨held, hheld⟩ := Table.exists_get?_of_mem_keys hmem
    rw [h] at hheld
    cases hheld
  have hput : Table.put (entries ++ []) key (Held.listAt place) = entries ++ Table.put [] key _ :=
    Table.put_append_of_not_mem hkey []
  rw [List.append_nil] at hput
  rw [hput, placesOf, List.filterMap_append]
  rfl

section

variable {lists : List (List Json)} {entries : Table Utf16 Held} {shown : Table Utf16 Json}

theorem Shows.get?_eq_none (h : Shows lists entries shown) {key : Utf16}
    (hnone : entries.get? key = none) : shown.get? key = none := by
  induction h with
  | nil => rfl
  | cons hentry hrest ih =>
    rw [Table.get?_cons] at hnone
    rw [Table.get?_cons, ← hentry.1]
    split at hnone
    · cases hnone
    · next hkey => rw [if_neg hkey, ih hnone]

theorem Shows.exists_get? (h : Shows lists entries shown) {key : Utf16} {held : Held}
    (hheld : entries.get? key = some held) :
    ∃ value, shown.get? key = some value ∧ held.json? lists = some value := by
  induction h with
  | nil => cases hheld
  | cons hentry hrest ih =>
    rw [Table.get?_cons] at hheld
    rw [Table.get?_cons, ← hentry.1]
    split at hheld
    · next hkey =>
      obtain rfl := Option.some.inj hheld
      exact ⟨_, if_pos hkey, hentry.2⟩
    · next hkey =>
      rw [if_neg hkey]
      exact ih hheld

theorem Shows.put (h : Shows lists entries shown) {key : Utf16} {held : Held} {value : Json}
    (hheld : held.json? lists = some value) :
    Shows lists (entries.put key held) (shown.put key value) := by
  induction h with
  | nil => exact .cons ⟨rfl, hheld⟩ .nil
  | cons hentry hrest ih =>
    rw [Table.put, Table.put, ← hentry.1]
    split
    · exact .cons ⟨rfl, hheld⟩ hrest
    · exact .cons hentry ih

theorem Shows.of_getElem? (h : Shows lists entries shown) {others : List (List Json)}
    (hlists : ∀ place ∈ placesOf entries, ∀ items, lists[place]? = some items →
      others[place]? = some items) :
    Shows others entries shown := by
  induction h with
  | nil => exact .nil
  | cons hentry hrest ih =>
    refine .cons ⟨hentry.1, Held.json?_of_getElem? hentry.2 fun place hplace => ?_⟩
      (ih fun place hplace => ?_)
    · exact hlists place (mem_placesOf.2 ⟨_, List.mem_cons_self, hplace⟩)
    · obtain ⟨entry, hmem, hentry⟩ := mem_placesOf.1 hplace
      exact hlists place (mem_placesOf.2 ⟨entry, List.mem_cons_of_mem _ hmem, hentry⟩)

theorem Shows.append (h : Shows lists entries shown) (more : List (List Json)) :
    Shows (lists ++ more) entries shown :=
  List.Forall₂.imp (fun _ _ hentry => ⟨hentry.1, Held.json?_append hentry.2 more⟩) h

theorem Shows.lt_length (h : Shows lists entries shown) {place : Nat} (hplace : place ∈ placesOf entries) :
    place < lists.length := by
  induction h with
  | nil => cases hplace
  | cons hentry hrest ih =>
    rw [placesOf_cons, List.mem_append] at hplace
    rcases hplace with hplace | hplace
    · exact Held.lt_length_of_json? hentry.2 (Option.mem_toList.1 hplace)
    · exact ih hplace

/-- A list that is replaced at its place is replaced under its key, and under no other one. -/
theorem Shows.set (h : Shows lists entries shown) (hnodup : (placesOf entries).Nodup)
    {key : Utf16} {place : Nat} (hplace : entries.get? key = some (.listAt place))
    (items : List Json) :
    Shows (lists.set place items) entries (shown.put key (.list items)) := by
  have hother {other : Nat} (hne : other ≠ place) :
      ∀ found, lists[other]? = some found → (lists.set place items)[other]? = some found := by
    intro found hfound
    rw [List.getElem?_set_ne hne.symm, hfound]
  induction h with
  | nil => cases hplace
  | @cons entry value entries shown hentry hrest ih =>
    rw [placesOf_cons, List.nodup_append'] at hnodup
    obtain ⟨-, hnodup, hdisjoint⟩ := hnodup
    rw [Table.get?_cons] at hplace
    rw [Table.put, ← hentry.1]
    split at hplace
    · next hkey =>
      rw [if_pos hkey]
      rw [Option.some_inj] at hplace
      obtain ⟨old, hold, -⟩ := Held.json?_listAt.1 (hplace ▸ hentry.2)
      refine .cons ⟨hkey, ?_⟩ (Shows.of_getElem? hrest fun other hmem => hother ?_)
      · rw [hplace, Held.json?_listAt]
        exact ⟨items, List.getElem?_set_self (List.getElem?_eq_some_iff.1 hold).1, rfl⟩
      · rintro rfl
        exact hdisjoint (by simp [hplace, Held.place?]) hmem
    · next hkey =>
      rw [if_neg hkey]
      refine .cons ⟨hentry.1, Held.json?_of_getElem? hentry.2 fun other hheld => hother ?_⟩
        (ih hnodup hplace)
      rintro rfl
      exact hdisjoint (by simp [hheld])
        (mem_placesOf.2 ⟨_, Table.mem_of_get? hplace, rfl⟩)

end

end Memory

end FlakeLint
