-- SUMMARY: Settings that are saved are loaded as they were.
import FlakeLint.Proofs.Disk.Replacement
import FlakeLint.Proofs.Json.RoundTrip
import FlakeLint.Proofs.Settings.Loading

/-!
# Saving and loading

Loaded settings are regular: they name all settings in order, and each checker
has a flag. Regular settings are read back from their text, and taking them over
entry by entry turns the defaults into them without a notice.
-/

namespace FlakeLint

namespace Setting

theorem mem_all (setting : Setting) : setting ∈ all := by
  cases setting <;> decide

theorem ofKey?_key (setting : Setting) : ofKey? setting.key = some setting := by
  cases setting <;> rfl

/-- No two settings have one key. -/
theorem nodup_keys : (all.map key).Nodup := by
  have hall : all.Nodup := by decide
  exact hall.map fun _ _ => key_injective

/-- Only the setting for checkers takes a table. -/
theorem eq_checkers_of_accepts {setting : Setting} {flags : List (Utf16 × Json)}
    (h : setting.accepts (.table flags)) : setting = checkers := by
  cases setting <;> first | rfl | cases h

/-- Only the setting for exclusions takes a list. -/
theorem eq_exclude_of_accepts {setting : Setting} {items : List Json}
    (h : setting.accepts (.list items)) : setting = exclude := by
  cases setting <;> first | rfl | cases h

end Setting

namespace Settings

-- ---------------------------------------------------------------------------
-- Regular settings
-- ---------------------------------------------------------------------------

/-- Flags as loading leaves them: no key occurs twice, and the checkers come first. -/
structure HasAllFlags (flags : Table Utf16 Json) : Prop where
  nodup : (Table.keys flags).Nodup
  start : (Checker.all.map fun checker => (checker.key : Utf16)) <+: Table.keys flags

/-- Settings as loading leaves them. -/
structure IsRegular (settings : Settings) : Prop where
  sound : settings.IsSound
  names : Table.keys settings = Setting.all.map Setting.key
  flags : ∀ flags, settings.get? Setting.checkers.key = some (.table flags) → HasAllFlags flags

theorem HasAllFlags.put {flags : Table Utf16 Json} (h : HasAllFlags flags) (checker : Utf16)
    (flag : Json) : HasAllFlags (flags.put checker flag) :=
  ⟨Table.nodup_keys_put h.nodup, h.start.trans Table.keys_prefix_put⟩

theorem HasAllFlags.update {flags : Table Utf16 Json} (h : HasAllFlags flags)
    (newer : Table Utf16 Json) : HasAllFlags (flags.update newer) :=
  ⟨Table.nodup_keys_update h.nodup, h.start.trans Table.keys_prefix_update⟩

theorem defaults_flags {flags : Table Utf16 Json}
    (h : defaults.get? Setting.checkers.key = some (.table flags)) :
    flags = Checker.all.map fun checker => (↑checker.key, .bool true) := by
  cases h
  rfl

theorem defaults_isRegular : IsRegular defaults where
  sound := defaults_isSound
  names := rfl
  flags := by
    intro flags hflags
    rw [defaults_flags hflags]
    exact ⟨by decide, List.prefix_rfl⟩

section

variable {settings : Settings} (h : settings.IsRegular)
include h

theorem IsRegular.exists_flags : ∃ flags, settings.get? Setting.checkers.key =
    some (.table flags) ∧ Setting.checkers.accepts (.table flags) ∧ HasAllFlags flags := by
  obtain ⟨value, hvalue, haccepts⟩ := h.sound .checkers
  cases value with
  | table flags => exact ⟨flags, hvalue, haccepts, h.flags flags hvalue⟩
  | _ => cases haccepts

theorem put_isRegular (setting : Setting) {value : Json} (haccepts : setting.accepts value)
    (hflags : ∀ flags, value = .table flags → HasAllFlags flags) :
    IsRegular (settings.put setting.key value) where
  sound := put_isSound h.sound setting haccepts
  names := by
    have hmem : setting.key ∈ Table.keys settings := by
      simpa [h.names] using ⟨setting, setting.mem_all, rfl⟩
    rw [Table.keys_put, if_pos hmem, h.names]
  flags := by
    intro flags hget
    by_cases hname : Setting.checkers.key = setting.key
    · rw [hname, Table.get?_put_self] at hget
      exact hflags flags (Option.some_inj.1 hget)
    · rw [Table.get?_put_of_ne _ _ hname] at hget
      exact h.flags flags hget

theorem adopt_isRegular (path : String) (key : Utf16) (value : Json) :
    IsRegular (adopt path settings key value).1 := by
  unfold adopt
  split
  · exact h
  · next setting hsetting =>
    obtain rfl := Setting.key_of_ofKey? hsetting
    split
    · exact h
    · next haccepts =>
      simp only [Bool.not_eq_true, Bool.not_eq_false'] at haccepts
      obtain ⟨old, hold, hflags, hall⟩ := h.exists_flags
      split
      · next old' new hold' =>
        obtain rfl : old = old' := by simpa [hold] using hold'
        refine put_isRegular h .checkers (accepts_update hflags haccepts) fun flags hvalue => ?_
        cases hvalue
        exact hall.update new
      · next hother =>
        refine put_isRegular h _ haccepts fun flags hvalue => ?_
        subst hvalue
        obtain rfl := Setting.eq_checkers_of_accepts haccepts
        exact absurd rfl (hother old flags rfl hold)

end

/-- Whatever a settings file holds, loading it leaves regular settings. -/
theorem isRegular_of_load {depth : Nat} {disk : Disk} {path : String} {settings : Settings}
    {notices : List Notice} (h : load depth disk path = .ok (settings, notices)) : settings.IsRegular :=
  load_induction defaults_isRegular
    (fun path _ key value hregular => adopt_isRegular hregular path key value) h

-- ---------------------------------------------------------------------------
-- Reading the text of regular settings
-- ---------------------------------------------------------------------------

theorem isReadable_of_accepts {setting : Setting} {value : Json} (h : setting.accepts value)
    (hflags : ∀ flags, value = .table flags → (Table.keys flags).Nodup) (depth : Nat) :
    value.isReadable (depth + 1) := by
  have hbool : ∀ flag : Json, flag.isBool → flag.isReadable depth := by
    intro flag hflag
    cases flag <;> first | rfl | cases hflag
  have htext : ∀ item : Json, item.isText → item.isReadable depth := by
    intro item hitem
    cases item <;> first | rfl | cases hitem
  cases value with
  | null | bool | text => rfl
  | number n => cases setting <;> cases h
  | list items =>
    obtain rfl := Setting.eq_exclude_of_accepts h
    have hitems : ∀ item ∈ items, item.isText := List.all_eq_true.1 h
    simpa [Json.isReadable] using fun item hitem => htext item (hitems item hitem)
  | table flags =>
    obtain rfl := Setting.eq_checkers_of_accepts h
    have hflag : ∀ entry ∈ flags, entry.2.isBool := List.all_eq_true.1 h
    simpa [Json.isReadable, hflags flags rfl] using
      fun key flag hentry => hbool flag (hflag (key, flag) hentry)

section

variable {settings : Settings} (h : settings.IsRegular)
include h

theorem IsRegular.nodup : (Table.keys settings).Nodup := by
  rw [h.names]
  exact Setting.nodup_keys

theorem IsRegular.accepts_of_mem {entry : Utf16 × Json} (hentry : entry ∈ settings) :
    ∃ setting : Setting, setting.key = entry.1 ∧ setting.accepts entry.2 ∧
      settings.get? setting.key = some entry.2 := by
  have hname : entry.1 ∈ Setting.all.map Setting.key :=
    h.names ▸ List.mem_map_of_mem hentry
  obtain ⟨setting, -, hsetting⟩ := List.mem_map.1 hname
  obtain ⟨value, hvalue, haccepts⟩ := h.sound setting
  have hget := Table.get?_of_mem h.nodup hentry
  rw [← hsetting] at hget
  obtain rfl : value = entry.2 := Option.some_inj.1 (hvalue.symm.trans hget)
  exact ⟨setting, hsetting, haccepts, hget⟩

theorem IsRegular.isReadable (depth : Nat) : (Json.table settings).isReadable (depth + 2) := by
  have hentries : ∀ entry ∈ settings, entry.2.isReadable (depth + 1) := by
    intro entry hentry
    obtain ⟨setting, -, haccepts, hget⟩ := h.accepts_of_mem hentry
    refine isReadable_of_accepts haccepts (fun flags hvalue => ?_) depth
    obtain rfl := Setting.eq_checkers_of_accepts (hvalue ▸ haccepts)
    exact (h.flags flags (hvalue ▸ hget)).nodup
  simpa [Json.isReadable, h.nodup] using fun key value hentry => hentries (key, value) hentry

end

-- ---------------------------------------------------------------------------
-- Taking over what was read
-- ---------------------------------------------------------------------------

section

variable {base newer : Settings} {old flags : Table Utf16 Json} (hnodup : (Table.keys flags).Nodup)
include hnodup

/-- An accepted entry is taken over as it is if its flags are all there are, in order. -/
theorem adopt_eq_put (path : String) {setting : Setting} {value : Json}
    (haccepts : setting.accepts value) (hflags : setting = .checkers → value = .table flags)
    (hold : base.get? Setting.checkers.key = some (.table old))
    (hkeys : Table.keys old <+: Table.keys flags) :
    adopt path base setting.key value = (base.put setting.key value, none) := by
  simp only [adopt, setting.ofKey?_key, haccepts, Bool.not_true, Bool.false_eq_true, if_false]
  split
  · next other new hget =>
    obtain rfl : old = other := by simpa [hold] using hget
    obtain rfl : new = flags := by simpa using hflags rfl
    rw [Table.update_eq_of_keys_prefix hkeys hnodup]
  · rfl

theorem adoptAll_eq_update (path : String)
    (hnewer : ∀ entry ∈ newer, ∃ setting : Setting, setting.key = entry.1 ∧
      setting.accepts entry.2 ∧ (setting = .checkers → entry.2 = .table flags))
    (hold : base.get? Setting.checkers.key = some (.table old))
    (hkeys : Table.keys old <+: Table.keys flags) :
    adoptAll path base newer = (base.update newer, []) := by
  induction newer generalizing base old with
  | nil => rfl
  | cons entry rest ih =>
    obtain ⟨⟨setting, hname, haccepts, hflags⟩, hrest⟩ := List.forall_mem_cons.1 hnewer
    have hadopt := adopt_eq_put hnodup path haccepts hflags hold hkeys
    -- The flags that the next entries meet are the old ones, or those that were just taken over.
    have hnext : ∃ next, (base.put setting.key entry.2).get? Setting.checkers.key =
        some (.table next) ∧ Table.keys next <+: Table.keys flags := by
      by_cases hchecker : Setting.checkers.key = setting.key
      · refine ⟨flags, ?_, List.prefix_rfl⟩
        rw [hchecker, Table.get?_put_self, hflags (Setting.key_injective hchecker.symm)]
      · exact ⟨old, (Table.get?_put_of_ne _ _ hchecker).trans hold, hkeys⟩
    obtain ⟨next, hget, hprefix⟩ := hnext
    simp [adoptAll, ← hname, hadopt, ih hrest hget hprefix, Table.update_cons]

end

-- ---------------------------------------------------------------------------
-- Saving and loading
-- ---------------------------------------------------------------------------

section

variable {settings : Settings} (h : settings.IsRegular)
include h

theorem adoptAll_defaults (path : String) : adoptAll path defaults settings = (settings, []) := by
  obtain ⟨flags, hget, -, hall⟩ := h.exists_flags
  have hentries : ∀ entry ∈ settings, ∃ setting : Setting, setting.key = entry.1 ∧
      setting.accepts entry.2 ∧ (setting = .checkers → entry.2 = .table flags) := by
    intro entry hentry
    obtain ⟨setting, hname, haccepts, hentry⟩ := h.accepts_of_mem hentry
    refine ⟨setting, hname, haccepts, ?_⟩
    rintro rfl
    exact Option.some_inj.1 (hentry.symm.trans hget)
  have hdefaults : Table.keys defaults <+: Table.keys settings := by
    rw [h.names]
    exact List.prefix_rfl
  obtain ⟨old, hold, -, -⟩ := defaults_isRegular.exists_flags
  have hkeys : Table.keys old <+: Table.keys flags := by
    rw [defaults_flags hold]
    exact hall.start
  rw [adoptAll_eq_update hall.nodup path hentries hold hkeys,
    Table.update_eq_of_keys_prefix hdefaults h.nodup]

theorem fileText_eq : settings.fileText =
    .ok (String.ofList (Json.write .ascii 0 (.table settings)) ++ "\n") := by
  simp [fileText, Json.document_eq_ok .ascii (h.isReadable 0), bind, Except.bind, pure, Except.pure]

theorem parseWithin_write {depth : Nat} (hdepth : 2 ≤ depth) :
    Json.parseWithin depth (Json.write .ascii 0 (.table settings) ++ ['\n']) =
      .ok (.table settings) := by
  obtain ⟨depth, rfl⟩ := Nat.exists_eq_add_of_le' hdepth
  exact Json.parseWithin_write .ascii 0 (h.isReadable depth) (by simp [Json.isGap])

/-- The text of regular settings is read as these settings, without a notice, by every reader that goes
into lists and tables in a table. -/
theorem ofText_write {depth : Nat} (hdepth : 2 ≤ depth) (path : String) :
    ofText depth path (Json.write .ascii 0 (.table settings) ++ ['\n']) = .ok (settings, []) := by
  simp [ofText, parseWithin_write h hdepth, adoptAll_defaults h]

/-- Regular settings that were saved are loaded as they were, without a notice. -/
theorem load_of_save {depth : Nat} (hdepth : 2 ≤ depth) {disk after : Disk} {path : String}
    (hsave : settings.save disk path = (after, .ok ())) :
    load depth after path = .ok (settings, []) := by
  rw [save, fileText_eq h] at hsave
  obtain ⟨place, hplace, hfile, -⟩ := Disk.find_of_replace hsave
  have hreturn : '\r' ∉ Json.write .ascii 0 (.table settings) ++ ['\n'] := by
    simp [Json.return_not_mem_write .ascii 0 _ (h.isReadable 0)]
  have hread : after.read (Path.normalized path) =
      .ok (.plain (Utf8.encode (Json.write .ascii 0 (.table settings) ++ ['\n'])),
        Json.write .ascii 0 (.table settings) ++ ['\n']) := by
    simp [Disk.read, Disk.file, Disk.place_normalized, hplace, hfile, File.plain, bind, Except.bind,
      pure, Except.pure, File.text_encode hreturn]
  have hthere : after.isThere (Path.normalized path) := by
    rw [Disk.isThere, Option.isSome_iff_exists]
    refine ⟨_, Disk.find?_eq_some_iff.2 ⟨place, ?_, hfile, rfl⟩⟩
    rw [Disk.place_normalized, hplace]
  simp [load, hthere, hread, ofText_write h hdepth]

end

end Settings

end FlakeLint
