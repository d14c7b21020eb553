-- SUMMARY: Overrides carried out in place, on a copy that shares no list with the settings it is made of.
import FlakeLint.Proofs.Settings.Memory

/-!
# Overrides in place

The copy that overrides are carried out on has lists of its own. So the settings that
were there stay as they are, and the copy comes to what `merge` says.
-/

namespace FlakeLint.Memory

-- ---------------------------------------------------------------------------
-- A copy in the making
-- ---------------------------------------------------------------------------

/-- All that was there before is there as it was; behind it stands one more table, and the lists of this
table are new ones. -/
structure IsCopying (before memory : Memory) (entries : Table Utf16 Held)
    (shown : Table Utf16 Json) : Prop where
  lists : before.lists <+: memory.lists
  tables : memory.tables = before.tables ++ [entries]
  shows : Shows memory.lists entries shown
  nodup : (placesOf entries).Nodup
  new : ∀ place ∈ placesOf entries, before.lists.length ≤ place

open Doing

theorem run_copy {memory : Memory} {held : Held} {value : Json}
    (h : held.json? memory.lists = some value) :
    ∃ copied more, run (copy held) memory =
        (.ok copied, { memory with lists := memory.lists ++ more }) ∧
      copied.json? (memory.lists ++ more) = some value ∧
      ∀ place, copied.place? = some place →
        memory.lists.length ≤ place ∧ place < (memory.lists ++ more).length := by
  cases held with
  | listAt place =>
    obtain ⟨items, hitems, rfl⟩ := Held.json?_listAt.1 h
    refine ⟨.listAt memory.lists.length, [items], ?_, ?_, ?_⟩
    · rw [copy, run_bind, run_listAt, List.getD_eq_getElem?_getD, hitems]
      rfl
    · exact Held.json?_listAt.2 ⟨items, by simp, rfl⟩
    · rintro place ⟨⟩
      simp
  | value json =>
    refine ⟨.value json, [], ?_, ?_, ?_⟩
    · rw [List.append_nil]
      rfl
    · rwa [List.append_nil]
    · rintro place ⟨⟩

/-- Entries that are copied one after the other get places one behind the other. -/
theorem run_copyEntries {memory : Memory} {entries : Table Utf16 Held} {shown : Table Utf16 Json}
    (h : Shows memory.lists entries shown) :
    ∃ copied more, run (entries.mapM copyEntry) memory =
        (.ok copied, { memory with lists := memory.lists ++ more }) ∧
      Shows (memory.lists ++ more) copied shown ∧ (placesOf copied).Nodup ∧
      ∀ place ∈ placesOf copied, memory.lists.length ≤ place := by
  induction entries generalizing memory shown with
  | nil =>
    cases h
    exact ⟨[], [], by rw [List.append_nil]; rfl, .nil, List.nodup_nil, List.forall_mem_nil _⟩
  | cons entry entries ih =>
    obtain _ | ⟨⟨hkey, hheld⟩, hrest⟩ := h
    obtain ⟨copied, more, hrun, hcopied, hplaces⟩ := run_copy hheld
    let between : Memory := { memory with lists := memory.lists ++ more }
    have hrest : Shows between.lists entries _ := Shows.append hrest more
    obtain ⟨others, behind, hruns, hothers, hnodup, hnew⟩ := ih hrest
    refine ⟨(entry.1, copied) :: others, more ++ behind, ?_, ?_, ?_, ?_⟩
    · rw [List.mapM_cons, run_bind, copyEntry, run_bind, hrun]
      dsimp only [run_pure]
      rw [run_bind, hruns]
      simp only [between, run_pure, List.append_assoc]
    · rw [← List.append_assoc]
      exact .cons ⟨hkey, Held.json?_append hcopied behind⟩ hothers
    · rw [placesOf_cons, List.nodup_append']
      refine ⟨by cases copied.place? <;> simp, hnodup, fun place hplace hother => ?_⟩
      have hplace := hplaces place (Option.mem_toList.1 hplace)
      exact absurd (hnew place hother) (Nat.not_le.2 hplace.2)
    · intro place hplace
      rw [placesOf_cons, List.mem_append] at hplace
      rcases hplace with hplace | hplace
      · exact (hplaces place (Option.mem_toList.1 hplace)).1
      · refine Nat.le_trans ?_ (hnew place hplace)
        simp [between]

/-- A copy shows what the table shows, in lists of its own. -/
theorem run_copyTable {memory : Memory} {place : Nat} {shown : Table Utf16 Json}
    (h : memory.HasAt place shown) :
    ∃ entries after, run (copyTable place) memory = (.ok memory.tables.length, after) ∧
      IsCopying memory after entries shown := by
  obtain ⟨entries, hentries, hshows, -⟩ := h
  obtain ⟨copied, more, hrun, hcopied, hnodup, hnew⟩ := run_copyEntries hshows
  refine ⟨copied, ⟨memory.lists ++ more, memory.tables ++ [copied]⟩, ?_, ?_⟩
  · rw [copyTable, run_bind, run_tableAt, List.getD_eq_getElem?_getD, hentries]
    dsimp only [Option.getD_some]
    rw [run_bind, hrun]
    dsimp only
    rw [run_newTable]
  · exact ⟨List.prefix_append _ _, rfl, hcopied, hnodup, hnew⟩

-- ---------------------------------------------------------------------------
-- Overrides of the copy
-- ---------------------------------------------------------------------------

section

variable {before memory : Memory} {entries : Table Utf16 Held} {shown : Table Utf16 Json}
  (h : IsCopying before memory entries shown)
include h

theorem IsCopying.getD_tables : memory.tables.getD before.tables.length [] = entries := by
  rw [h.tables, List.getD_eq_getElem?_getD, List.getElem?_concat_length, Option.getD_some]

theorem IsCopying.lists_getElem? {place : Nat} {items : List Json}
    (hitems : before.lists[place]? = some items) : memory.lists[place]? = some items := by
  obtain ⟨more, hmore⟩ := h.lists
  rw [← hmore, List.getElem?_append_left (List.getElem?_eq_some_iff.1 hitems).1, hitems]

/-- A list of the copy is extended without touching any list that was there before. -/
theorem IsCopying.setList {key : Utf16} {place : Nat}
    (hplace : entries.get? key = some (.listAt place)) (items : List Json) :
    IsCopying before { memory with lists := memory.lists.set place items } entries
      (shown.put key (.list items)) where
  lists := by
    have hnew : before.lists.length ≤ place :=
      h.new place (mem_placesOf.2 ⟨_, Table.mem_of_get? hplace, rfl⟩)
    obtain ⟨more, hmore⟩ := h.lists
    refine ⟨more.set (place - before.lists.length) items, ?_⟩
    rw [← hmore, List.set_append_right _ _ hnew]
  tables := h.tables
  shows := h.shows.set h.nodup hplace items
  nodup := h.nodup
  new := h.new

theorem IsCopying.putValue (key : Utf16) {json : Json} (hjson : ∀ items, json ≠ .list items) :
    IsCopying before { memory with
      tables := memory.tables.set before.tables.length (entries.put key (.value json)) }
      (entries.put key (.value json)) (shown.put key json) where
  lists := h.lists
  tables := by rw [h.tables, List.set_append_right _ _ le_rfl, Nat.sub_self]; rfl
  shows := h.shows.put (Held.json?_value.2 ⟨rfl, hjson⟩)
  nodup := h.nodup.sublist (placesOf_put_value_sublist entries key json)
  new place hplace := h.new place ((placesOf_put_value_sublist entries key json).subset hplace)

theorem IsCopying.putNewList {key : Utf16} (hkey : entries.get? key = none) :
    IsCopying before
      { lists := memory.lists ++ [[]]
        tables := memory.tables.set before.tables.length
          (entries.put key (.listAt memory.lists.length)) }
      (entries.put key (.listAt memory.lists.length)) (shown.put key (.list [])) where
  lists := h.lists.trans (List.prefix_append _ _)
  tables := by rw [h.tables, List.set_append_right _ _ le_rfl, Nat.sub_self]; rfl
  shows := (h.shows.append [[]]).put (Held.json?_listAt.2 ⟨[], by simp, rfl⟩)
  nodup := by
    rw [placesOf_put_listAt hkey, List.nodup_append']
    refine ⟨h.nodup, List.nodup_singleton _, fun place hplace hlast => ?_⟩
    exact absurd (h.shows.lt_length hplace) (by simp [List.mem_singleton.1 hlast])
  new := by
    intro place hplace
    rw [placesOf_put_listAt hkey, List.mem_append, List.mem_singleton] at hplace
    rcases hplace with hplace | rfl
    · exact h.new place hplace
    · exact h.lists.length_le

end

/-- Something that is done to the copy ends as it does on the values that the copy shows, and leaves a
copy behind in any case. -/
def Follows (before memory : Memory) (doing : Doing Unit) (shown : Except Fault (Table Utf16 Json)) :
    Prop :=
  ∃ after entries left, IsCopying before after entries left ∧
    ((shown = .ok left ∧ run doing memory = (.ok (), after)) ∨
      ∃ fault, shown = .error fault ∧ run doing memory = (.error fault, after))

section

variable {before memory : Memory} {entries : Table Utf16 Held} {shown : Table Utf16 Json}
  (h : IsCopying before memory entries shown)
include h

theorem follows_override (key : Utf16) {held : Held} {value : Json}
    (hheld : held.json? before.lists = some value) :
    Follows before memory (override before.tables.length key held)
      (Settings.override shown key value) := by
  cases held with
  | value json =>
    obtain ⟨rfl, hjson⟩ := Held.json?_value.1 hheld
    cases json with
    | null => exact ⟨memory, entries, shown, h, .inl ⟨Settings.override_null, rfl⟩⟩
    | list items => exact absurd rfl (hjson items)
    | bool | number | text | table =>
      cases hsetting : Setting.ofKey? key with
      | none =>
        refine ⟨memory, entries, shown, h, .inr ⟨.edit (.unknownKey key.shown), ?_, ?_⟩⟩
        · simp only [Settings.override, hsetting]
        · simp only [override, hsetting, run_throw]
      | some setting =>
        refine ⟨_, _, _, h.putValue key hjson, .inl ⟨?_, ?_⟩⟩
        · simp only [Settings.override, hsetting]
        · simp only [override, hsetting, run_bind, run_tableAt, h.getD_tables, run_setTable]
  | listAt source =>
    obtain ⟨new, hnew, rfl⟩ := Held.json?_listAt.1 hheld
    cases hsetting : Setting.ofKey? key with
    | none =>
      refine ⟨memory, entries, shown, h, .inr ⟨.edit (.unknownKey key.shown), ?_, ?_⟩⟩
      · simp only [Settings.override, hsetting]
      · simp only [override, hsetting, run_throw]
    | some setting =>
      have hsource := h.lists_getElem? hnew
      cases hfound : entries.get? key with
      | none =>
        have hshown := h.shows.get?_eq_none hfound
        have hcopying := (h.putNewList hfound).setList (Table.get?_put_self _ _ _)
          (Settings.extend [] new)
        refine ⟨_, _, _, hcopying, .inl ⟨?_, ?_⟩⟩
        · simp only [Settings.override, hsetting, hshown, Option.getD_none, Table.put_put_self]
        · simp only [override, hsetting, run_bind, run_tableAt, h.getD_tables, hfound, run_newList,
            run_setTable]
          refine run_extendList (by simp) ?_
          rw [List.getElem?_append_left (List.getElem?_eq_some_iff.1 hsource).1, hsource]
      | some found =>
        obtain ⟨value, hshown, hheld⟩ := h.shows.exists_get? hfound
        cases found with
        | value json =>
          obtain ⟨rfl, hjson⟩ := Held.json?_value.1 hheld
          refine ⟨memory, entries, shown, h, .inr ⟨.wrongShape, ?_, ?_⟩⟩
          · simp only [Settings.override, hsetting, hshown, Option.getD_some]
          · simp only [override, hsetting, run_bind, run_tableAt, h.getD_tables, hfound, run_throw]
        | listAt list =>
          obtain ⟨old, hold, rfl⟩ := Held.json?_listAt.1 hheld
          refine ⟨_, _, _, h.setList hfound (Settings.extend old new), .inl ⟨?_, ?_⟩⟩
          · simp only [Settings.override, hsetting, hshown, Option.getD_some]
          · simp only [override, hsetting, run_bind, run_tableAt, h.getD_tables, hfound,
              run_extendList hold hsource]

omit h in
/-- Each override meets the copy as those before it have left it. -/
theorem follows_overrides {asked : Table Utf16 Held} {values : Table Utf16 Json}
    (hasked : Shows before.lists asked values) (h : IsCopying before memory entries shown) :
    Follows before memory
      (forM asked fun entry => override before.tables.length entry.1 entry.2)
      (Settings.merge shown values) := by
  induction hasked generalizing memory entries shown with
  | nil => exact ⟨memory, entries, shown, h, .inl ⟨rfl, rfl⟩⟩
  | @cons entry value asked values hentry hrest ih =>
    obtain ⟨hkey, hheld⟩ := hentry
    obtain ⟨between, changed, left, hcopying, hends⟩ := follows_override h value.1 hheld
    have hmerge : Settings.merge shown (value :: values) =
        Settings.override shown value.1 value.2 >>= fun left => Settings.merge left values :=
      List.foldlM_cons
    rw [hmerge]
    rcases hends with ⟨hvalue, hdone⟩ | ⟨fault, hfault, hdone⟩
    · obtain ⟨after, others, rest, hcopying, hends⟩ := ih hcopying
      refine ⟨after, others, rest, hcopying, ?_⟩
      rw [List.forM_cons, run_bind, hkey, hdone, hvalue]
      exact hends
    · refine ⟨between, changed, left, hcopying, .inr ⟨fault, ?_, ?_⟩⟩
      · rw [hfault]
        rfl
      · rw [List.forM_cons, run_bind, hkey, hdone]

end

-- ---------------------------------------------------------------------------
-- Overrides of settings in memory
-- ---------------------------------------------------------------------------

/-- Everything that was in the memory is there as it was. -/
def Keeps (before after : Memory) : Prop :=
  before.lists <+: after.lists ∧ before.tables <+: after.tables

/-- The table at a place shows some values; neither the table nor any list of it was there before. -/
def HasNewAt (before after : Memory) (place : Nat) (shown : Table Utf16 Json) : Prop :=
  after.HasAt place shown ∧ before.tables.length ≤ place ∧
    ∀ entries, after.tables[place]? = some entries →
      ∀ list ∈ placesOf entries, before.lists.length ≤ list

theorem HasAt.of_keeps {before after : Memory} {place : Nat} {shown : Table Utf16 Json}
    (h : before.HasAt place shown) (hkeeps : before.Keeps after) : after.HasAt place shown := by
  obtain ⟨entries, hentries, hshows, hnodup⟩ := h
  obtain ⟨⟨lists, hlists⟩, tables, htables⟩ := hkeeps
  refine ⟨entries, ?_, hlists ▸ hshows.append lists, hnodup⟩
  rw [← htables, List.getElem?_append_left (List.getElem?_eq_some_iff.1 hentries).1, hentries]

section

variable {before after : Memory} {entries : Table Utf16 Held} {shown : Table Utf16 Json}
  (h : IsCopying before after entries shown)
include h

theorem IsCopying.keeps : before.Keeps after :=
  ⟨h.lists, h.tables ▸ List.prefix_append _ _⟩

theorem IsCopying.hasNewAt : before.HasNewAt after before.tables.length shown := by
  have hentries : after.tables[before.tables.length]? = some entries := by
    rw [h.tables, List.getElem?_concat_length]
  refine ⟨⟨entries, hentries, h.shows, h.nodup⟩, le_rfl, fun found hfound => ?_⟩
  obtain rfl := Option.some.inj (hentries.symm.trans hfound)
  exact h.new

end

section

variable {memory : Memory} {config asked : Nat} {settings overrides : Table Utf16 Json}
  (hconfig : memory.HasAt config settings) (hasked : memory.HasAt asked overrides)
include hconfig hasked

/-- Carrying overrides out in place comes to what they make of the values. -/
theorem run_merge : ∃ after, memory.Keeps after ∧
    (∀ merged, Settings.merge settings overrides = .ok merged →
      run (merge config asked) memory = (.ok memory.tables.length, after) ∧
      memory.HasNewAt after memory.tables.length merged) ∧
    ∀ fault, Settings.merge settings overrides = .error fault →
      run (merge config asked) memory = (.error fault, after) := by
  obtain ⟨entries, copied, hcopy, hcopying⟩ := run_copyTable hconfig
  obtain ⟨held, hheld, hshows, -⟩ := hasked.of_keeps hcopying.keeps
  obtain ⟨found, hfound, hasked, -⟩ := hasked
  obtain rfl : held = found := by
    rw [hcopying.tables, List.getElem?_append_left (List.getElem?_eq_some_iff.1 hfound).1,
      hfound] at hheld
    exact (Option.some.inj hheld).symm
  obtain ⟨after, others, left, hcopying, hends⟩ := follows_overrides hasked hcopying
  have hrun : run (merge config asked) memory =
      run ((forM held fun entry => override memory.tables.length entry.1 entry.2) >>=
        fun _ => pure memory.tables.length) copied := by
    rw [merge, run_bind, hcopy]
    dsimp only
    rw [run_bind, run_tableAt, List.getD_eq_getElem?_getD, hheld]
    rfl
  refine ⟨after, hcopying.keeps, fun merged hmerged => ?_, fun fault hfault => ?_⟩
  · rcases hends with ⟨hvalue, hdone⟩ | ⟨fault, hfault, -⟩
    · obtain rfl := Except.ok.inj (hmerged.symm.trans hvalue)
      refine ⟨?_, hcopying.hasNewAt⟩
      rw [hrun, run_bind, hdone]
      rfl
    · rw [hmerged] at hfault
      cases hfault
  · rcases hends with ⟨hvalue, -⟩ | ⟨found, hfound, hdone⟩
    · rw [hfault] at hvalue
      cases hvalue
    · obtain rfl := Except.error.inj (hfault.symm.trans hfound)
      rw [hrun, run_bind, hdone]

/-- Overrides of valid settings are refused exactly if one of them asks for a value under an unknown key.
Otherwise they are taken over key by key, and taking them over again changes nothing. Carried out in
memory they leave everything there as it was, also where they are refused, and what they come to shares
neither a table nor a list with what was there. -/
theorem merge_leaves_settings (hvalid : Settings.IsValid settings)
    (hnodup : (Table.keys overrides).Nodup) (hlists : Settings.ListsFit overrides)
    (hdistinct : ∀ entry ∈ overrides, entry.2.hasDistinctKeys) :
    ((∃ fault, Settings.merge settings overrides = .error fault) ↔
      ∃ entry ∈ overrides, entry.2 ≠ .null ∧ ∀ setting : Setting, setting.key ≠ entry.1) ∧
    Settings.Ends overrides (Settings.merge settings overrides) ∧
    (∀ merged, Settings.merge settings overrides = .ok merged →
      Settings.IsOverridden settings overrides merged) ∧
    ∃ after, memory.Keeps after ∧ after.HasAt config settings ∧
      (∀ merged, Settings.merge settings overrides = .ok merged →
        ∃ place, run (merge config asked) memory = (.ok place, after) ∧
          memory.HasNewAt after place merged) ∧
      ∀ fault, Settings.merge settings overrides = .error fault →
        run (merge config asked) memory = (.error fault, after) := by
  have hends := Settings.ends_merge hvalid hlists hnodup
  refine ⟨?_, hends, fun merged hmerged => ?_, ?_⟩
  · rw [hends.isError_iff]
    simp only [Settings.IsKnown, not_exists]
  · rw [hmerged] at hends
    exact Settings.isOverridden_of_merge hnodup hdistinct hends.known
      (Settings.hasRoomFor_of_isValid hvalid hlists hends.known) hmerged
  · obtain ⟨after, hkeeps, hok, herror⟩ := run_merge hconfig hasked
    exact ⟨after, hkeeps, hconfig.of_keeps hkeeps, fun merged hmerged => ⟨_, hok merged hmerged⟩,
      herror⟩

end

/-- Settings that exclude two patterns, and overrides that ask for one of them and, twice, for another
one. -/
def asking : Memory where
  lists := [[.text "a", .text "b"], [.text "b", .text "c", .text "c"]]
  tables := [
    [("exclude", .listAt 0), ("file_summary", .value (.bool true))],
    [("exclude", .listAt 1), ("issue_explain", .value (.bool true)), ("output_format", .value .null)]]

theorem merge_leaves_settings_asking : ∃ after, asking.Keeps after ∧
    after.HasAt 0 [("exclude", .list [.text "a", .text "b"]), ("file_summary", .bool true)] ∧
    ∃ place, run (merge 0 1) asking = (.ok place, after) ∧
      asking.HasNewAt after place [("exclude", .list [.text "a", .text "b", .text "c"]),
        ("file_summary", .bool true), ("issue_explain", .bool true)] := by
  let settings : Table Utf16 Json :=
    [("exclude", .list [.text "a", .text "b"]), ("file_summary", .bool true)]
  let overrides : Table Utf16 Json :=
    [("exclude", .list [.text "b", .text "c", .text "c"]), ("issue_explain", .bool true),
      ("output_format", .null)]
  have hconfig : asking.HasAt 0 settings :=
    ⟨_, rfl, .cons ⟨rfl, rfl⟩ (.cons ⟨rfl, rfl⟩ .nil), by decide⟩
  have hasked : asking.HasAt 1 overrides :=
    ⟨_, rfl, .cons ⟨rfl, rfl⟩ (.cons ⟨rfl, rfl⟩ (.cons ⟨rfl, rfl⟩ .nil)), by decide⟩
  have hvalid : Settings.IsValid settings := by
    intro setting value h
    cases setting <;> cases h <;> rfl
  have hlists : Settings.ListsFit overrides := by
    intro setting new h
    have hkey : setting.key = Setting.exclude.key := by
      simp only [overrides, List.mem_cons, Prod.mk.injEq, List.not_mem_nil, or_false, reduceCtorEq,
        and_false] at h
      exact h.1
    obtain rfl := Setting.key_injective hkey
    exact ⟨[], rfl⟩
  have hdistinct : ∀ entry ∈ overrides, entry.2.hasDistinctKeys := by
    simp [overrides, Json.hasDistinctKeys, Json.haveDistinctKeys]
  have hmerge : Settings.merge settings overrides =
      .ok [("exclude", .list [.text "a", .text "b", .text "c"]), ("file_summary", .bool true),
        ("issue_explain", .bool true)] := rfl
  obtain ⟨-, -, -, after, hkeeps, hconfig, hok, -⟩ :=
    merge_leaves_settings hconfig hasked hvalid (by decide) hlists hdistinct
  exact ⟨after, hkeeps, hconfig, hok _ hmerge⟩

end FlakeLint.Memory
