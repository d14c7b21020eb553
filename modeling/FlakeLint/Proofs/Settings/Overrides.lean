-- SUMMARY: Overrides of settings: what each key comes to, when they are refused, and that once is enough.
import FlakeLint.Proofs.Json.Alike
import FlakeLint.Proofs.Settings.Reload
import FlakeLint.Settings.Edit

/-!
# Overrides

A list is extended while it is searched, so whether an item is new is decided by what
has grown by then. As equality of values is transitive, it comes to the same to ask
whether an equal item was configured or comes earlier among the new ones.
-/

namespace FlakeLint.Settings

-- ---------------------------------------------------------------------------
-- Lists
-- ---------------------------------------------------------------------------

/-- The new items that no old item and no earlier new item is alike, in order. -/
def firstOccurrences (old new : List Json) : List Json :=
  (new.zipIdx.filter fun entry =>
    !(old ++ new.take entry.2).any (Json.alike entry.1)).map Prod.fst

section

variable {old new : List Json} {item : Json}

theorem extend_append_singleton : extend old (new ++ [item]) =
    if (extend old new).any (Json.alike item) then extend old new else extend old new ++ [item] := by
  rw [extend, List.foldl_append]
  rfl

theorem firstOccurrences_append_singleton : firstOccurrences old (new ++ [item]) =
    firstOccurrences old new ++ if (old ++ new).any (Json.alike item) then [] else [item] := by
  have hbefore : ∀ entry ∈ new.zipIdx, (new ++ [item]).take entry.2 = new.take entry.2 := by
    intro entry hentry
    exact List.take_append_of_le_length (List.snd_lt_of_mem_zipIdx hentry).le
  unfold firstOccurrences
  rw [List.zipIdx_append, List.filter_append, List.map_append]
  congr 1
  · congr 1
    exact List.filter_congr fun entry hentry => by rw [hbefore entry hentry]
  · rw [Nat.zero_add, List.zipIdx_singleton, List.filter_singleton, List.take_left]
    cases (old ++ new).any (Json.alike item) <;> rfl

theorem mem_of_mem_extend (h : item ∈ extend old new) : item ∈ old ∨ item ∈ new := by
  induction new using List.reverseRecOn with
  | nil => exact .inl h
  | append_singleton new last ih =>
    rw [extend_append_singleton] at h
    split at h
    · exact (ih h).imp_right (List.mem_append_left _)
    · rcases List.mem_append.1 h with h | h
      · exact (ih h).imp_right (List.mem_append_left _)
      · exact .inr (List.mem_append_right _ h)

theorem prefix_extend (old new : List Json) : old <+: extend old new := by
  induction new using List.reverseRecOn with
  | nil => exact List.prefix_rfl
  | append_singleton new last ih =>
    rw [extend_append_singleton]
    split
    · exact ih
    · exact ih.trans (List.prefix_append _ _)

/-- Whatever is to be added is there in the end, or something that it is alike. -/
theorem exists_alike_of_mem (hnew : ∀ item ∈ new, item.hasDistinctKeys) (h : item ∈ new) :
    ∃ kept ∈ extend old new, Json.alike item kept := by
  induction new using List.reverseRecOn with
  | nil => cases h
  | append_singleton new last ih =>
    rw [extend_append_singleton]
    rcases List.mem_append.1 h with h | h
    · obtain ⟨kept, hkept, halike⟩ := ih (fun item hitem => hnew item (List.mem_append_left _ hitem)) h
      split
      · exact ⟨kept, hkept, halike⟩
      · exact ⟨kept, List.mem_append_left _ hkept, halike⟩
    · obtain rfl := List.mem_singleton.1 h
      split
      · next hfound => exact List.any_eq_true.1 hfound
      · exact ⟨item, List.mem_append_right _ h, Json.alike_refl item (hnew item (by simp))⟩

/-- The grown list has something alike the item as soon as the old or the new items have. -/
theorem any_alike_extend (hnew : ∀ item ∈ new, item.hasDistinctKeys) :
    (extend old new).any (Json.alike item) = (old ++ new).any (Json.alike item) := by
  rw [Bool.eq_iff_iff, List.any_eq_true, List.any_eq_true]
  constructor
  · rintro ⟨found, hfound, halike⟩
    exact ⟨found, List.mem_append.2 (mem_of_mem_extend hfound), halike⟩
  · rintro ⟨found, hfound, halike⟩
    rcases List.mem_append.1 hfound with hfound | hfound
    · exact ⟨found, (prefix_extend old new).subset hfound, halike⟩
    · obtain ⟨kept, hkept, halike'⟩ : ∃ kept ∈ extend old new, Json.alike found kept :=
        exists_alike_of_mem hnew hfound
      exact ⟨kept, hkept, Json.alike_trans item halike halike'⟩

/-- A list is extended by the first occurrences of what it does not have. -/
theorem extend_eq (old : List Json) (hnew : ∀ item ∈ new, item.hasDistinctKeys) :
    extend old new = old ++ firstOccurrences old new := by
  induction new using List.reverseRecOn with
  | nil => exact (List.append_nil old).symm
  | append_singleton new last ih =>
    have hnew : ∀ item ∈ new, item.hasDistinctKeys := fun item hitem =>
      hnew item (List.mem_append_left _ hitem)
    rw [extend_append_singleton, any_alike_extend hnew, ih hnew, firstOccurrences_append_singleton]
    split
    · rw [List.append_nil]
    · rw [List.append_assoc]

/-- A list that is extended twice by the same items has them the second time. -/
theorem extend_extend (old : List Json) (hnew : ∀ item ∈ new, item.hasDistinctKeys) :
    extend (extend old new) new = extend old new := by
  have hkeep (items : List Json) (hitems : ∀ item ∈ items, item ∈ new) :
      items.foldl (fun items item =>
        if items.any (Json.alike item) then items else items ++ [item]) (extend old new) =
        extend old new := by
    induction items with
    | nil => rfl
    | cons item items ih =>
      rw [List.forall_mem_cons] at hitems
      rw [List.foldl_cons, if_pos (List.any_eq_true.2 (exists_alike_of_mem hnew hitems.1)), ih hitems.2]
  exact hkeep new fun _ => id

end

-- ---------------------------------------------------------------------------
-- Single overrides
-- ---------------------------------------------------------------------------

/-- The override asks for a value. -/
def isAsked (entry : Utf16 × Json) : Bool :=
  match entry.2 with
  | .null => false
  | _ => true

theorem isAsked_iff {entry : Utf16 × Json} : isAsked entry ↔ entry.2 ≠ .null := by
  unfold isAsked
  split <;> simp_all

/-- The key is that of a setting. -/
def IsKnown (key : Utf16) : Prop :=
  ∃ setting : Setting, setting.key = key

theorem ofKey?_eq_none_iff {key : Utf16} : Setting.ofKey? key = none ↔ ¬ IsKnown key := by
  constructor
  · rintro hnone ⟨setting, rfl⟩
    rw [setting.ofKey?_key] at hnone
    cases hnone
  · intro hunknown
    rw [← Option.not_isSome_iff_eq_none, Option.isSome_iff_exists]
    exact fun ⟨setting, hsetting⟩ => hunknown ⟨setting, Setting.key_of_ofKey? hsetting⟩

/-- The list under a key, an empty one if there is none. -/
def itemsAt (settings : Settings) (key : Utf16) : List Json :=
  match settings.get? key with
  | some (.list items) => items
  | _ => []

/-- What stands under a key once a value is asked for. -/
def overridden (settings : Settings) (key : Utf16) : Json → Json
  | .list new => .list (extend (settings.itemsAt key) new)
  | value => value

/-- A list is asked for only where a list can grow: one is there, or nothing. -/
def HasRoomFor (settings : Settings) (entry : Utf16 × Json) : Prop :=
  ∀ new value, entry.2 = .list new → settings.get? entry.1 = some value → ∃ old, value = .list old

section

variable {settings : Settings} {key : Utf16} {value : Json}

theorem override_null : settings.override key .null = .ok settings := by
  unfold override
  rfl

theorem override_unknown (hasked : value ≠ .null) (h : ¬ IsKnown key) :
    settings.override key value = .error (.edit (.unknownKey key.shown)) := by
  rw [← ofKey?_eq_none_iff] at h
  unfold override
  cases value with
  | null => exact absurd rfl hasked
  | _ => rw [h]

theorem override_known (hasked : value ≠ .null) (h : IsKnown key)
    (hroom : settings.HasRoomFor (key, value)) :
    settings.override key value = .ok (settings.put key (settings.overridden key value)) := by
  obtain ⟨setting, rfl⟩ := h
  unfold override
  cases value with
  | null => exact absurd rfl hasked
  | list new =>
    simp only [setting.ofKey?_key, overridden, itemsAt]
    cases hvalue : settings.get? setting.key with
    | none => rfl
    | some value =>
      obtain ⟨old, rfl⟩ := hroom new value rfl hvalue
      rfl
  | _ => simp only [setting.ofKey?_key, overridden]

end

-- ---------------------------------------------------------------------------
-- All overrides
-- ---------------------------------------------------------------------------

/-- What is written for the overrides, as far as they ask for anything. -/
def written (settings : Settings) (overrides : Table Utf16 Json) : Table Utf16 Json :=
  (overrides.filter isAsked).map fun entry => (entry.1, settings.overridden entry.1 entry.2)

section

variable {settings : Settings} {overrides : Table Utf16 Json}

/-- An override leaves what the overrides of other keys find. -/
theorem overridden_put {key other : Utf16} (h : other ≠ key) (value asked : Json) :
    overridden (settings.put key value) other asked = settings.overridden other asked := by
  cases asked with
  | list new => simp only [overridden, itemsAt, Table.get?_put_of_ne settings value h]
  | _ => rfl

/-- As every key is overridden once, each override meets what was there before all of them. -/
theorem merge_eq (hnodup : (Table.keys overrides).Nodup)
    (hknown : ∀ entry ∈ overrides, entry.2 ≠ .null → IsKnown entry.1)
    (hroom : ∀ entry ∈ overrides, settings.HasRoomFor entry) :
    settings.merge overrides = .ok (settings.update (settings.written overrides)) := by
  induction overrides generalizing settings with
  | nil => rfl
  | cons entry overrides ih =>
    obtain ⟨key, value⟩ := entry
    rw [Table.keys_cons, List.nodup_cons] at hnodup
    rw [List.forall_mem_cons] at hknown hroom
    have hother : ∀ entry ∈ overrides, entry.1 ≠ key := by
      rintro entry hentry rfl
      exact hnodup.1 (List.mem_map.2 ⟨entry, hentry, rfl⟩)
    rw [merge, List.foldlM_cons]
    by_cases hasked : value = .null
    · subst hasked
      rw [override_null]
      exact ih hnodup.2 hknown.2 hroom.2
    · rw [override_known hasked (hknown.1 hasked) hroom.1]
      have hroom : ∀ entry ∈ overrides,
          HasRoomFor (settings.put key (settings.overridden key value)) entry := by
        intro entry hentry
        unfold HasRoomFor
        rw [Table.get?_put_of_ne _ _ (hother entry hentry)]
        exact hroom.2 entry hentry
      have hrest := ih hnodup.2 hknown.2 hroom
      refine hrest.trans ?_
      rw [written, written, List.filter_cons_of_pos (isAsked_iff.2 hasked), List.map_cons,
        Table.update_cons]
      congr 2
      refine List.map_congr_left fun entry hentry => ?_
      rw [overridden_put (hother entry (List.mem_of_mem_filter hentry))]

/-- The first override of a key that is unknown stops a merge. -/
theorem merge_of_unknown {before after : Table Utf16 Json} {key : Utf16} {value : Json}
    (hnodup : (Table.keys before).Nodup)
    (hknown : ∀ entry ∈ before, entry.2 ≠ .null → IsKnown entry.1)
    (hroom : ∀ entry ∈ before, settings.HasRoomFor entry) (hasked : value ≠ .null)
    (hunknown : ¬ IsKnown key) :
    settings.merge (before ++ (key, value) :: after) = .error (.edit (.unknownKey key.shown)) := by
  have hbefore := merge_eq hnodup hknown hroom
  rw [merge] at hbefore ⊢
  rw [List.foldlM_append, hbefore]
  change List.foldlM _ _ _ = _
  rw [List.foldlM_cons, override_unknown hasked hunknown]
  rfl

theorem nodup_keys_written (hnodup : (Table.keys overrides).Nodup) :
    (Table.keys (settings.written overrides)).Nodup := by
  have hkeys : Table.keys (settings.written overrides) = Table.keys (overrides.filter isAsked) := by
    rw [written, Table.keys, List.map_map]
    rfl
  rw [hkeys]
  exact hnodup.sublist (List.filter_sublist.map _)

theorem get?_written (hnodup : (Table.keys overrides).Nodup) {key : Utf16} {value : Json}
    (h : overrides.get? key = some value) (hasked : value ≠ .null) :
    (settings.written overrides).get? key = some (settings.overridden key value) := by
  have hmem : (key, value) ∈ overrides.filter isAsked :=
    List.mem_filter.2 ⟨Table.mem_of_get? h, isAsked_iff.2 hasked⟩
  exact Table.get?_of_mem (nodup_keys_written hnodup) (List.mem_map_of_mem hmem)

theorem get?_written_eq_none (hnodup : (Table.keys overrides).Nodup) {key : Utf16}
    (h : overrides.get? key = none ∨ overrides.get? key = some .null) :
    (settings.written overrides).get? key = none := by
  apply Table.get?_eq_none
  intro hmem
  obtain ⟨written, hwritten, rfl⟩ := List.mem_map.1 hmem
  obtain ⟨entry, hentry, rfl⟩ := List.mem_map.1 hwritten
  obtain ⟨hentry, hasked⟩ := List.mem_filter.1 hentry
  rw [Table.get?_of_mem hnodup hentry] at h
  rcases h with h | h
  · cases h
  · exact isAsked_iff.1 hasked (Option.some.inj h)

end

-- ---------------------------------------------------------------------------
-- Merged settings
-- ---------------------------------------------------------------------------

/-- What overrides make of settings, key by key; the same overrides once more make nothing else. -/
structure IsOverridden (settings : Settings) (overrides : Table Utf16 Json) (merged : Settings) :
    Prop where
  kept : ∀ key, overrides.get? key = none ∨ overrides.get? key = some .null →
    merged.get? key = settings.get? key
  replaced : ∀ key value, overrides.get? key = some value → value ≠ .null →
    (∀ new, value ≠ .list new) → merged.get? key = some value
  extended : ∀ key new, overrides.get? key = some (.list new) → merged.get? key =
    some (.list (settings.itemsAt key ++ firstOccurrences (settings.itemsAt key) new))
  again : merged.merge overrides = .ok merged

section

variable {settings : Settings} {overrides : Table Utf16 Json}

theorem get?_update_written (hnodup : (Table.keys overrides).Nodup) (key : Utf16) :
    (settings.update (settings.written overrides)).get? key =
      ((settings.written overrides).get? key).or (settings.get? key) := by
  rw [Table.get?_update, Table.last?_eq_get? (nodup_keys_written hnodup)]

theorem get?_merged (hnodup : (Table.keys overrides).Nodup) {key : Utf16} {value : Json}
    (h : overrides.get? key = some value) (hasked : value ≠ .null) :
    (settings.update (settings.written overrides)).get? key =
      some (settings.overridden key value) := by
  rw [get?_update_written hnodup, get?_written hnodup h hasked, Option.some_or]

/-- Where a value has been written, it is what is asked for there. -/
theorem overridden_overridden {merged : Settings} {key : Utf16} {value : Json}
    (hdistinct : value.hasDistinctKeys) (h : merged.get? key = some (settings.overridden key value)) :
    merged.overridden key value = settings.overridden key value := by
  cases value with
  | list new =>
    rw [Json.hasDistinctKeys, Json.haveDistinctKeys_iff] at hdistinct
    have hitems : merged.itemsAt key = extend (settings.itemsAt key) new := by
      rw [itemsAt, h]
      rfl
    rw [overridden, overridden, hitems, extend_extend _ hdistinct]
  | _ => rfl

variable (hnodup : (Table.keys overrides).Nodup)
  (hdistinct : ∀ entry ∈ overrides, entry.2.hasDistinctKeys)
  (hknown : ∀ entry ∈ overrides, entry.2 ≠ .null → IsKnown entry.1)
include hnodup hdistinct hknown

theorem merge_again : merge (settings.update (settings.written overrides)) overrides =
    .ok (settings.update (settings.written overrides)) := by
  have hroom : ∀ entry ∈ overrides,
      HasRoomFor (settings.update (settings.written overrides)) entry := by
    intro entry hentry new value hnew hvalue
    have hget : (settings.update (settings.written overrides)).get? entry.1 =
        some (settings.overridden entry.1 entry.2) :=
      get?_merged hnodup (Table.get?_of_mem hnodup hentry) (hnew ▸ by simp)
    rw [hvalue, hnew, Option.some_inj] at hget
    exact ⟨_, hget⟩
  rw [merge_eq hnodup hknown hroom]
  refine congrArg Except.ok (Table.update_eq_self ?_)
  intro found hfound
  obtain ⟨entry, hentry, rfl⟩ := List.mem_map.1 hfound
  obtain ⟨hentry, hasked⟩ := List.mem_filter.1 hentry
  have hget : (settings.update (settings.written overrides)).get? entry.1 =
      some (settings.overridden entry.1 entry.2) :=
    get?_merged hnodup (Table.get?_of_mem hnodup hentry) (isAsked_iff.1 hasked)
  rw [hget, overridden_overridden (hdistinct entry hentry) hget]

theorem isOverridden_of_merge (hroom : ∀ entry ∈ overrides, settings.HasRoomFor entry)
    {merged : Settings} (h : settings.merge overrides = .ok merged) :
    settings.IsOverridden overrides merged := by
  rw [merge_eq hnodup hknown hroom] at h
  obtain rfl := Except.ok.inj h
  exact {
    kept := by
      intro key hkey
      rw [get?_update_written hnodup, get?_written_eq_none hnodup hkey, Option.none_or]
    replaced := by
      intro key value hvalue hasked hlist
      rw [get?_merged hnodup hvalue hasked]
      cases value with
      | list new => exact absurd rfl (hlist new)
      | _ => rfl
    extended := by
      intro key new hnew
      have hitems := hdistinct (key, .list new) (Table.mem_of_get? hnew)
      rw [Json.hasDistinctKeys, Json.haveDistinctKeys_iff] at hitems
      rw [get?_merged hnodup hnew (by simp), overridden, extend_eq _ hitems]
    again := merge_again hnodup hdistinct hknown }

end

-- ---------------------------------------------------------------------------
-- Overrides of valid settings
-- ---------------------------------------------------------------------------

/-- The overrides ask for lists only where a setting takes lists. -/
def ListsFit (overrides : Table Utf16 Json) : Prop :=
  ∀ (setting : Setting) (new : List Json), (setting.key, .list new) ∈ overrides →
    ∃ items, setting.accepts (.list items)

/-- How a merge ends: with settings if every override that asks for anything has a known key, otherwise
refused for the first one that has not. -/
inductive Ends (overrides : Table Utf16 Json) : Except Fault Settings → Prop where
  | merged (merged : Settings) (known : ∀ entry ∈ overrides, entry.2 ≠ .null → IsKnown entry.1) :
      Ends overrides (.ok merged)
  | refused (before after : Table Utf16 Json) (key : Utf16) (value : Json)
      (split : overrides = before ++ (key, value) :: after) (asked : value ≠ .null)
      (unknown : ¬ IsKnown key) (known : ∀ entry ∈ before, entry.2 ≠ .null → IsKnown entry.1) :
      Ends overrides (.error (.edit (.unknownKey key.shown)))

theorem Ends.known {overrides : Table Utf16 Json} {merged : Settings}
    (h : Ends overrides (.ok merged)) : ∀ entry ∈ overrides, entry.2 ≠ .null → IsKnown entry.1 := by
  cases h with
  | merged merged known => exact known

theorem Ends.isError_iff {overrides : Table Utf16 Json} {outcome : Except Fault Settings}
    (h : Ends overrides outcome) : (∃ fault, outcome = .error fault) ↔
      ∃ entry ∈ overrides, entry.2 ≠ .null ∧ ¬ IsKnown entry.1 := by
  cases h with
  | merged merged known =>
    refine iff_of_false ?_ ?_
    · rintro ⟨fault, ⟨⟩⟩
    · rintro ⟨entry, hentry, hasked, hunknown⟩
      exact hunknown (known entry hentry hasked)
  | refused before after key value split asked unknown =>
    exact iff_of_true ⟨_, rfl⟩ ⟨(key, value), by simp [split], asked, unknown⟩

theorem exists_first_unknown {overrides : Table Utf16 Json} {entry : Utf16 × Json}
    (hmem : entry ∈ overrides) (hasked : entry.2 ≠ .null) (hunknown : ¬ IsKnown entry.1) :
    ∃ before key value after, overrides = before ++ (key, value) :: after ∧ value ≠ .null ∧
      ¬ IsKnown key ∧ ∀ entry ∈ before, entry.2 ≠ .null → IsKnown entry.1 := by
  induction overrides with
  | nil => cases hmem
  | cons first overrides ih =>
    by_cases hfirst : first.2 ≠ .null ∧ ¬ IsKnown first.1
    · exact ⟨[], first.1, first.2, overrides, rfl, hfirst.1, hfirst.2, List.forall_mem_nil _⟩
    · have hlater : entry ∈ overrides := by
        rcases List.mem_cons.1 hmem with rfl | hlater
        · exact absurd ⟨hasked, hunknown⟩ hfirst
        · exact hlater
      obtain ⟨before, key, value, after, rfl, hvalue, hkey, hbefore⟩ := ih hlater
      rw [not_and_not_right] at hfirst
      exact ⟨first :: before, key, value, after, rfl, hvalue, hkey,
        List.forall_mem_cons.2 ⟨hfirst, hbefore⟩⟩

section

variable {settings : Settings} (hvalid : settings.IsValid) {overrides : Table Utf16 Json}
  (hlists : ListsFit overrides)
include hvalid hlists

theorem hasRoomFor_of_isValid (hknown : ∀ entry ∈ overrides, entry.2 ≠ .null → IsKnown entry.1) :
    ∀ entry ∈ overrides, settings.HasRoomFor entry := by
  rintro ⟨key, value⟩ hentry new found rfl hfound
  obtain ⟨setting, rfl⟩ := hknown _ hentry (by simp)
  obtain ⟨items, hitems⟩ := hlists setting new hentry
  obtain rfl := Setting.eq_exclude_of_accepts hitems
  have haccepts := hvalid .exclude found hfound
  cases found with
  | list old => exact ⟨old, rfl⟩
  | _ => cases haccepts

theorem ends_merge (hnodup : (Table.keys overrides).Nodup) : Ends overrides (settings.merge overrides) := by
  by_cases hknown : ∀ entry ∈ overrides, entry.2 ≠ .null → IsKnown entry.1
  · rw [merge_eq hnodup hknown (hasRoomFor_of_isValid hvalid hlists hknown)]
    exact .merged _ hknown
  · push Not at hknown
    obtain ⟨entry, hmem, hasked, hunknown⟩ := hknown
    obtain ⟨before, key, value, after, rfl, hvalue, hkey, hbefore⟩ :=
      exists_first_unknown hmem hasked hunknown
    rw [Table.keys_append] at hnodup
    have hnodup := (List.nodup_append.1 hnodup).1
    have hlists : ListsFit before := fun setting new hnew =>
      hlists setting new (List.mem_append_left _ hnew)
    rw [merge_of_unknown hnodup hbefore (hasRoomFor_of_isValid hvalid hlists hbefore)
      hvalue hkey]
    exact .refused before after key value rfl hvalue hkey hbefore

end

end FlakeLint.Settings
