-- SUMMARY: What an edit of settings writes, or why it is rejected, as relations that the edits keep to.
import FlakeLint.Proofs.Json.Alike
import FlakeLint.Proofs.Settings.Changes
import FlakeLint.Proofs.Settings.Choices

/-!
# Edits

An edit is rejected for its key or its value, whatever the settings are, or it writes
one value to one slot: a setting, or the flag of a single checker. Which value that
is follows from the edit, and for exclusions from those that are there. Of regular
settings every edit makes regular ones, or it is rejected.
-/

namespace FlakeLint.Settings

-- ---------------------------------------------------------------------------
-- Slots
-- ---------------------------------------------------------------------------

/-- What can be written to in settings: a setting, or the flag of a single checker. -/
inductive Slot where
  | whole (setting : Setting)
  | flag (checker : Utf16)
deriving DecidableEq

namespace Slot

/-- What is there in a slot. -/
def value? (settings : Settings) : Slot → Option Json
  | .whole setting => settings.get? setting.key
  | .flag checker =>
    match settings.get? Setting.checkers.key with
    | some (.table flags) => Table.get? flags checker
    | _ => none

/-- The slots are the same, or one of them has all flags and the other a single one. -/
def Overlaps (slot other : Slot) : Prop :=
  slot = other ∨ (slot = .whole .checkers ∧ ∃ checker, other = .flag checker) ∨
    (other = .whole .checkers ∧ ∃ checker, slot = .flag checker)

end Slot

/-- Both settings have the same keys, and every slot that does not overlap with a given one has the same
entry in both. -/
structure AgreeApartFrom (slot : Slot) (settings edited : Settings) : Prop where
  keys : Table.keys edited = Table.keys settings
  entries : ∀ other : Slot, ¬ slot.Overlaps other → other.value? edited = other.value? settings

section

variable {settings : Settings} (h : settings.IsRegular)
include h

theorem keys_put_of_isRegular (setting : Setting) (value : Json) :
    Table.keys (settings.put setting.key value) = Table.keys settings := by
  have hmem : setting.key ∈ Table.keys settings := by
    rw [h.names]
    exact List.mem_map_of_mem setting.mem_all
  rw [Table.keys_put, if_pos hmem]

theorem agree_put (setting : Setting) (value : Json) :
    AgreeApartFrom (.whole setting) settings (settings.put setting.key value) where
  keys := keys_put_of_isRegular h setting value
  entries := by
    intro other hother
    unfold Slot.Overlaps at hother
    cases other with
    | whole other =>
      refine Table.get?_put_of_ne _ _ fun hkey => hother ?_
      exact .inl (congrArg Slot.whole (Setting.key_injective hkey).symm)
    | flag checker =>
      have hkey : Setting.checkers.key ≠ setting.key := by
        intro hkey
        obtain rfl := Setting.key_injective hkey
        exact hother (.inr (.inl ⟨rfl, checker, rfl⟩))
      simp only [Slot.value?, Table.get?_put_of_ne _ _ hkey]

theorem agree_put_flag {flags : Table Utf16 Json}
    (hflags : settings.get? Setting.checkers.key = some (.table flags)) (checker : Utf16)
    (flag : Json) : AgreeApartFrom (.flag checker) settings
      (settings.put Setting.checkers.key (.table (flags.put checker flag))) where
  keys := keys_put_of_isRegular h .checkers _
  entries := by
    intro other hother
    unfold Slot.Overlaps at hother
    cases other with
    | whole other =>
      refine Table.get?_put_of_ne _ _ fun hkey => hother ?_
      obtain rfl := Setting.key_injective hkey
      exact .inr (.inr ⟨rfl, checker, rfl⟩)
    | flag other =>
      have hne : other ≠ checker := by
        rintro rfl
        exact hother (.inl rfl)
      simp only [Slot.value?, Table.get?_put_self, hflags, Table.get?_put_of_ne _ _ hne]

end

-- ---------------------------------------------------------------------------
-- Keys and words
-- ---------------------------------------------------------------------------

theorem flagOf?_mark (checker : String) : flagOf? (flagMark ++ checker) = some checker := by
  rw [flagOf?, String.toList_append, Text.afterPrefix_append, Option.map_some, String.ofList_toList]

theorem eq_of_flagOf? {key checker : String} (h : flagOf? key = some checker) :
    key = flagMark ++ checker := by
  obtain ⟨rest, hrest, rfl⟩ := Option.map_eq_some_iff.1 h
  apply String.toList_injective
  rw [Text.eq_append_of_afterPrefix hrest, String.toList_append, String.toList_ofList]

theorem flagOf?_name (setting : Setting) : flagOf? setting.name = none := by
  cases setting <;> decide +kernel

theorem flagOf?_eq_none {key : String} (h : ∀ checker, key ≠ flagMark ++ checker) :
    flagOf? key = none := by
  rw [Option.eq_none_iff_forall_ne_some]
  exact fun checker hchecker => h checker (eq_of_flagOf? hchecker)

theorem ofKey?_eq_none {key : String} (h : ∀ setting : Setting, setting.name ≠ key) :
    Setting.ofKey? key = none := by
  rw [Option.eq_none_iff_forall_ne_some]
  intro setting hsetting
  exact h setting (Utf16.ofString_injective (Setting.key_of_ofKey? hsetting))

theorem ofKey?_name (setting : Setting) : Setting.ofKey? setting.name = some setting :=
  setting.ofKey?_key

/-- A word that switches something on or off, in any spelling of its letters. -/
inductive IsFlagWord (raw : String) : Bool → Prop
  | on (hword : Text.lower raw ∈ ["true", "1", "yes", "on"]) : IsFlagWord raw true
  | off (hword : Text.lower raw ∈ ["false", "0", "no", "off"]) : IsFlagWord raw false

theorem readFlag_of_isFlagWord {raw : String} {flag : Bool} (h : IsFlagWord raw flag) (key : String) :
    readFlag key raw = .ok flag := by
  unfold readFlag
  dsimp only
  cases h with
  | on hword =>
    have hon : onWords.contains (Text.lower raw) = true := List.contains_iff_mem.2 hword
    rw [if_pos hon]
  | off hword =>
    have hoff : offWords.contains (Text.lower raw) = true := List.contains_iff_mem.2 hword
    have hwords : ∀ word ∈ offWords, onWords.contains word = false := by decide
    rw [hwords _ hword, if_neg Bool.false_ne_true, if_pos hoff]

theorem readFlag_of_not_isFlagWord {raw : String} (h : ∀ flag, ¬ IsFlagWord raw flag) (key : String) :
    readFlag key raw = .error (.edit (.notABool key raw)) := by
  unfold readFlag
  dsimp only
  have hon : ¬ onWords.contains (Text.lower raw) = true := fun hword =>
    h true (.on (List.contains_iff_mem.1 hword))
  have hoff : ¬ offWords.contains (Text.lower raw) = true := fun hword =>
    h false (.off (List.contains_iff_mem.1 hword))
  rw [if_neg hon, if_neg hoff]

-- ---------------------------------------------------------------------------
-- Edits
-- ---------------------------------------------------------------------------

/-- A change of settings that the command line can ask for. -/
inductive Edit where
  | set (key raw : String)
  | unset (key : String)
deriving DecidableEq, Repr

namespace Edit

/-- The edit in memory. -/
def apply (settings : Settings) : Edit → Except Fault Settings
  | .set key raw => settings.set key raw
  | .unset key => settings.unset key

/-- The edit in place. -/
def change : Edit → Change Unit
  | .set key raw => Change.set key raw
  | .unset key => Change.unset key

/-- No edit leaves a trace where it is refused, whatever the settings are. -/
theorem change_isAtomic (edit : Edit) : edit.change.IsAtomic := by
  cases edit with
  | set key raw => exact Change.set_isAtomic key raw
  | unset key => exact Change.unset_isAtomic key

theorem apply_eq_changed (settings : Settings) (edit : Edit) :
    edit.apply settings = settings.changed edit.change := by
  cases edit <;> rfl

/-- Why an edit is rejected: its key names nothing that can be set, or its value does not fit. -/
inductive Rejects : Edit → EditFault → Prop
  | unknownChecker {checker raw : String} (hunknown : ∀ known : Checker, known.key ≠ checker) :
      Rejects (.set (flagMark ++ checker) raw) (.unknownChecker checker)
  | unfitFlag {checker : Checker} {raw : String} (hword : ∀ flag, ¬ IsFlagWord raw flag) :
      Rejects (.set (flagMark ++ checker.key) raw) (.notABool (flagMark ++ checker.key) raw)
  | unknownKey {key raw : String} (hflag : ∀ checker, key ≠ flagMark ++ checker)
      (hunknown : ∀ setting : Setting, setting.name ≠ key) :
      Rejects (.set key raw) (.unknownKey key)
  | unfitSwitch {setting : Setting} {raw : String} (hswitch : setting.isSwitch)
      (hword : ∀ flag, ¬ IsFlagWord raw flag) :
      Rejects (.set setting.name raw) (.notABool setting.name raw)
  | unfitFormat {raw : String} (hformat : ∀ format : ReportFormat, format.name ≠ raw) :
      Rejects (.set Setting.format.name raw)
        (.notAFormat Setting.format.name raw ["console", "json", "scorecard", "both"])
  | blankPath {raw : String} (hblank : Text.trim raw = "") :
      Rejects (.set Setting.scorecardPath.name raw) (.emptyValue Setting.scorecardPath.name)
  | wholeTable {raw : String} :
      Rejects (.set Setting.checkers.name raw) (.wholeTable Setting.checkers.name)
  | unknownReset {key : String} (hunknown : ∀ setting : Setting, setting.name ≠ key) :
      Rejects (.unset key) (.unknownKey key)

/-- What an edit writes, and to which slot: what its word stands for, the text itself, the exclusions
with one more unless it is among them, or a default. -/
inductive Writes (settings : Settings) : Edit → Slot → Json → Prop
  | flag {checker : Checker} {raw : String} {flag : Bool} (hword : IsFlagWord raw flag) :
      Writes settings (.set (flagMark ++ checker.key) raw) (.flag checker.key) (.bool flag)
  | switch {setting : Setting} {raw : String} {flag : Bool} (hswitch : setting.isSwitch)
      (hword : IsFlagWord raw flag) :
      Writes settings (.set setting.name raw) (.whole setting) (.bool flag)
  | format (format : ReportFormat) :
      Writes settings (.set Setting.format.name format.name) (.whole .format) (.text format.name)
  | path {raw : String} (hsome : Text.trim raw ≠ "") :
      Writes settings (.set Setting.scorecardPath.name raw) (.whole .scorecardPath)
        (.text (Text.trim raw))
  | known {raw : String} {texts : List Utf16}
      (hold : (Slot.whole .exclude).value? settings = some (.list (texts.map .text)))
      (hknown : ↑raw ∈ texts) :
      Writes settings (.set Setting.exclude.name raw) (.whole .exclude) (.list (texts.map .text))
  | added {raw : String} {texts : List Utf16}
      (hold : (Slot.whole .exclude).value? settings = some (.list (texts.map .text)))
      (hnew : ↑raw ∉ texts) :
      Writes settings (.set Setting.exclude.name raw) (.whole .exclude)
        (.list ((texts ++ [(raw : Utf16)]).map .text))
  | reset (setting : Setting) :
      Writes settings (.unset setting.name) (.whole setting) setting.default

-- ---------------------------------------------------------------------------
-- Rejected edits
-- ---------------------------------------------------------------------------

theorem change_set_flag (checker raw : String) :
    Edit.change (.set (flagMark ++ checker) raw) =
      Change.setFlag (flagMark ++ checker) checker raw := by
  rw [change, Change.set, flagOf?_mark]

/-- A key that is the name of a setting is no flag's, and stands for the setting. -/
theorem change_set_name (setting : Setting) (raw : String) :
    Edit.change (.set setting.name raw) = match setting with
      | .explain | .fileSummary | .codebase => do
        Change.write setting.key (.bool (← (readFlag setting.name raw : Except Fault Bool)))
      | .format =>
        if ReportFormat.names.contains raw then Change.write setting.key (.text raw)
        else throw (.edit (.notAFormat setting.name raw ReportFormat.names))
      | .scorecardPath =>
        if Text.trim raw = "" then throw (.edit (.emptyValue setting.name))
        else Change.write setting.key (.text (Text.trim raw))
      | .exclude => Change.append setting.name raw
      | .checkers => throw (.edit (.wholeTable setting.name)) := by
  rw [change, Change.set, flagOf?_name]
  cases setting <;> rfl

theorem run_readFlag_bind {raw : String} (h : ∀ flag, ¬ IsFlagWord raw flag) (key : String)
    (next : Bool → Change Unit) (settings : Settings) :
    (liftM (readFlag key raw) >>= next).run settings =
      (.error (.edit (.notABool key raw)), settings) := by
  rw [Change.run_lift_bind, readFlag_of_not_isFlagWord h]

/-- A rejected edit leaves any settings as they are. -/
theorem run_of_rejects {edit : Edit} {fault : EditFault} (h : edit.Rejects fault)
    (settings : Settings) : edit.change.run settings = (.error (.edit fault), settings) := by
  cases h with
  | @unknownChecker checker raw hunknown =>
    have hnone : Checker.ofKey? checker = none := by
      refine List.find?_eq_none.2 fun known _ => ?_
      simpa using hunknown known
    rw [change_set_flag, Change.setFlag, hnone]
    rfl
  | @unfitFlag checker raw hword =>
    have hsome : Checker.ofKey? checker.key = some checker := by cases checker <;> rfl
    rw [change_set_flag, Change.setFlag, hsome]
    exact run_readFlag_bind hword _ _ settings
  | unknownKey hflag hunknown =>
    rw [change, Change.set, flagOf?_eq_none hflag, ofKey?_eq_none hunknown]
    rfl
  | @unfitSwitch setting raw hswitch hword =>
    rw [change_set_name]
    cases setting with
    | explain | fileSummary | codebase => exact run_readFlag_bind hword _ _ settings
    | _ => cases hswitch
  | @unfitFormat raw hformat =>
    have hnone : ReportFormat.names.contains raw = false := by
      rw [← Bool.not_eq_true, List.contains_iff_mem, ReportFormat.names, List.mem_map]
      rintro ⟨format, -, hname⟩
      exact hformat format hname
    rw [change_set_name]
    dsimp only
    rw [hnone, if_neg Bool.false_ne_true]
    rfl
  | blankPath hblank =>
    rw [change_set_name]
    dsimp only
    rw [if_pos hblank]
    rfl
  | wholeTable =>
    rw [change_set_name]
    rfl
  | unknownReset hunknown =>
    rw [change, Change.unset, ofKey?_eq_none hunknown]
    rfl

end Edit

-- ---------------------------------------------------------------------------
-- Edits that write
-- ---------------------------------------------------------------------------

/-- A change has left regular settings with a value in a slot and everything else as it was. -/
structure HasWritten (slot : Slot) (value : Json) (settings edited : Settings) : Prop where
  regular : edited.IsRegular
  entry : slot.value? edited = some value
  agree : AgreeApartFrom slot settings edited

section

variable {settings : Settings} (h : settings.IsRegular)
include h

/-- Any accepted value may be put under its setting, with the flags of all checkers if it is a table. -/
theorem put_hasWritten (setting : Setting) {value : Json} (haccepts : setting.accepts value)
    (hflags : ∀ flags, value = .table flags → HasAllFlags flags) :
    HasWritten (.whole setting) value settings (settings.put setting.key value) where
  regular := put_isRegular h setting haccepts hflags
  entry := Table.get?_put_self _ _ _
  agree := agree_put h setting value

theorem put_flag_hasWritten {flags : Table Utf16 Json}
    (hflags : settings.get? Setting.checkers.key = some (.table flags)) (checker : Utf16)
    (flag : Bool) : HasWritten (.flag checker) (.bool flag) settings
      (settings.put Setting.checkers.key (.table (flags.put checker (.bool flag)))) where
  regular := by
    obtain ⟨old, hold, haccepts, hall⟩ := h.exists_flags
    obtain rfl : old = flags := by simpa [hold] using hflags
    refine put_isRegular h .checkers ?_ fun flags hvalue => ?_
    · exact List.all_eq_true.2 (Table.forall_mem_put
        (P := fun value => Json.isBool value = true) (List.all_eq_true.1 haccepts) rfl)
    · cases hvalue
      exact hall.put checker _
  entry := by
    simp only [Slot.value?, Table.get?_put_self]
  agree := agree_put_flag h hflags checker _

/-- The exclusions that are there are texts. -/
theorem exists_texts : ∃ texts : List Utf16,
    settings.get? Setting.exclude.key = some (.list (texts.map .text)) := by
  obtain ⟨value, hvalue, haccepts⟩ := h.sound .exclude
  obtain ⟨texts, rfl⟩ := Setting.exists_patterns_of_accepts haccepts
  exact ⟨texts, hvalue⟩

end

theorem any_alike_text (texts : List Utf16) (text : Utf16) :
    (texts.map Json.text).any (Json.alike (.text text)) = decide (text ∈ texts) := by
  rw [Bool.eq_iff_iff, List.any_eq_true, decide_eq_true_iff]
  constructor
  · rintro ⟨_, hmem, halike⟩
    obtain ⟨other, hother, rfl⟩ := List.mem_map.1 hmem
    obtain rfl := Json.text.inj (Json.alike_text_iff.1 halike)
    exact hother
  · intro hmem
    exact ⟨_, List.mem_map_of_mem hmem, Json.alike_text_iff.2 rfl⟩

/-- A text is appended to the exclusions unless it is among them. -/
theorem run_append {settings : Settings} {texts : List Utf16}
    (hold : settings.get? Setting.exclude.key = some (.list (texts.map .text))) (raw : String) :
    (Change.append Setting.exclude.name raw).run settings =
      (.ok (), if (raw : Utf16) ∈ texts then settings
        else settings.put Setting.exclude.key (.list ((texts ++ [(raw : Utf16)]).map .text))) := by
  have hthere : settings.get? Setting.exclude.name = some (.list (texts.map .text)) := hold
  unfold Change.append
  dsimp only
  rw [Change.run_setDefault_bind hthere]
  dsimp only
  rw [any_alike_text, List.map_append, List.map_singleton]
  by_cases hknown : (raw : Utf16) ∈ texts
  · rw [decide_eq_true hknown, if_pos rfl, if_pos hknown]
    rfl
  · rw [decide_eq_false hknown, if_neg Bool.false_ne_true, if_neg hknown]
    rfl

/-- A new exclusion comes last. -/
theorem apply_set_exclude {settings : Settings} {texts : List Utf16} {raw : String}
    (hold : settings.get? Setting.exclude.key = some (.list (texts.map .text)))
    (hnew : (raw : Utf16) ∉ texts) :
    Edit.apply settings (.set Setting.exclude.name raw) =
      .ok (settings.put Setting.exclude.key (.list ((texts ++ [(raw : Utf16)]).map .text))) := by
  have hchange : Edit.change (.set Setting.exclude.name raw) =
      Change.append Setting.exclude.name raw := Edit.change_set_name .exclude raw
  rw [Edit.apply_eq_changed, changed_eq_ok, hchange, run_append hold, if_neg hnew]

section

variable {settings : Settings} (h : settings.IsRegular)
include h

/-- An edit leaves what it is to write in its slot, and everything else as it was. -/
theorem run_of_writes {edit : Edit} {slot : Slot} {value : Json}
    (hwrites : edit.Writes settings slot value) :
    ∃ edited, edit.change.run settings = (.ok (), edited) ∧
      HasWritten slot value settings edited := by
  cases hwrites with
  | @flag checker raw flag hword =>
    obtain ⟨flags, hget, -, -⟩ := h.exists_flags
    have hsome : Checker.ofKey? checker.key = some checker := by cases checker <;> rfl
    refine ⟨_, ?_, put_flag_hasWritten h hget checker.key flag⟩
    rw [Edit.change_set_flag, Change.setFlag, hsome, readFlag_of_isFlagWord hword]
    exact Change.run_setDefault_bind hget _
  | @switch setting raw flag hswitch hword =>
    have haccepts : setting.accepts (.bool flag) := by
      cases setting <;> first | rfl | cases hswitch
    refine ⟨_, ?_, put_hasWritten h setting haccepts fun flags hvalue => by cases hvalue⟩
    rw [Edit.change_set_name]
    cases setting with
    | explain | fileSummary | codebase =>
      dsimp only
      rw [readFlag_of_isFlagWord hword]
      rfl
    | _ => cases hswitch
  | format format =>
    have hmem : format.name ∈ ReportFormat.names := List.mem_map_of_mem (by cases format <;> decide)
    refine ⟨_, ?_, put_hasWritten h .format ?_ fun flags hvalue => by cases hvalue⟩
    · rw [Edit.change_set_name]
      dsimp only
      rw [if_pos (List.contains_iff_mem.2 hmem)]
      rfl
    · exact List.any_eq_true.2 ⟨format.name, hmem, decide_eq_true rfl⟩
  | @path raw hsome =>
    refine ⟨_, ?_, put_hasWritten h .scorecardPath rfl fun flags hvalue => by cases hvalue⟩
    rw [Edit.change_set_name]
    dsimp only
    rw [if_neg hsome]
    rfl
  | @known raw texts hold hknown =>
    refine ⟨settings, ?_, h, hold, rfl, fun other hother => rfl⟩
    rw [Edit.change_set_name]
    dsimp only
    rw [run_append hold, if_pos hknown]
  | @added raw texts hold hnew =>
    refine ⟨_, ?_, put_hasWritten h .exclude ?_ fun flags hvalue => by cases hvalue⟩
    · rw [Edit.change_set_name]
      dsimp only
      rw [run_append hold, if_neg hnew]
    · simp [Setting.accepts, Json.isText]
  | reset setting =>
    refine ⟨settings.put setting.key setting.default, ?_, put_hasWritten h setting setting.accepts_default ?_⟩
    · rw [Edit.change, Change.unset, ofKey?_name]
      rfl
    · intro flags hvalue
      obtain rfl := Setting.eq_checkers_of_accepts (hvalue ▸ setting.accepts_default)
      exact defaults_isRegular.flags flags (congrArg some hvalue)

/-- There is nothing that an edit could be but rejected or written. -/
theorem rejects_or_writes (edit : Edit) :
    (∃ fault, edit.Rejects fault) ∨ ∃ slot value, edit.Writes settings slot value := by
  have hnames : ∀ key : String, (∃ setting : Setting, setting.name = key) ∨
      ∀ setting : Setting, setting.name ≠ key := by
    intro key
    rw [← not_exists]
    exact em _
  have hwords : ∀ raw, (∃ flag, IsFlagWord raw flag) ∨ ∀ flag, ¬ IsFlagWord raw flag := by
    intro raw
    rw [← not_exists]
    exact em _
  cases edit with
  | unset key =>
    rcases hnames key with ⟨setting, rfl⟩ | hunknown
    · exact .inr ⟨_, _, .reset setting⟩
    · exact .inl ⟨_, .unknownReset hunknown⟩
  | set key raw =>
    by_cases hmark : ∃ checker, key = flagMark ++ checker
    · obtain ⟨checker, rfl⟩ := hmark
      by_cases hknown : ∃ known : Checker, known.key = checker
      · obtain ⟨known, rfl⟩ := hknown
        rcases hwords raw with ⟨flag, hword⟩ | hword
        · exact .inr ⟨_, _, .flag hword⟩
        · exact .inl ⟨_, .unfitFlag hword⟩
      · exact .inl ⟨_, .unknownChecker (not_exists.1 hknown)⟩
    rcases hnames key with ⟨setting, rfl⟩ | hunknown
    swap
    · exact .inl ⟨_, .unknownKey (not_exists.1 hmark) hunknown⟩
    cases setting with
    | checkers => exact .inl ⟨_, .wholeTable⟩
    | format =>
      by_cases hformat : ∃ format : ReportFormat, format.name = raw
      · obtain ⟨format, rfl⟩ := hformat
        exact .inr ⟨_, _, .format format⟩
      · exact .inl ⟨_, .unfitFormat (not_exists.1 hformat)⟩
    | scorecardPath =>
      by_cases hblank : Text.trim raw = ""
      · exact .inl ⟨_, .blankPath hblank⟩
      · exact .inr ⟨_, _, .path hblank⟩
    | exclude =>
      obtain ⟨texts, hold⟩ := exists_texts h
      by_cases hknown : (raw : Utf16) ∈ texts
      · exact .inr ⟨_, _, .known hold hknown⟩
      · exact .inr ⟨_, _, .added hold hknown⟩
    | explain | fileSummary | codebase =>
      rcases hwords raw with ⟨flag, hword⟩ | hword
      · exact .inr ⟨_, _, .switch rfl hword⟩
      · exact .inl ⟨_, .unfitSwitch rfl hword⟩

/-- An edit of regular settings is rejected and changes nothing, or it writes what it is to write. -/
theorem change_cases (edit : Edit) :
    (∃ fault, edit.Rejects fault ∧ edit.change.run settings = (.error (.edit fault), settings)) ∨
    ∃ slot value edited, edit.Writes settings slot value ∧
      edit.change.run settings = (.ok (), edited) ∧ HasWritten slot value settings edited := by
  rcases rejects_or_writes h edit with ⟨fault, hrejects⟩ | ⟨slot, value, hwrites⟩
  · exact .inl ⟨fault, hrejects, Edit.run_of_rejects hrejects settings⟩
  · obtain ⟨edited, hrun, hwritten⟩ := run_of_writes h hwrites
    exact .inr ⟨slot, value, edited, hwrites, hrun, hwritten⟩

/-- What an edit makes of regular settings has what it writes in its slot. -/
theorem hasWritten_of_apply {edit : Edit} {edited : Settings}
    (happly : edit.apply settings = .ok edited) :
    ∃ slot value, edit.Writes settings slot value ∧ HasWritten slot value settings edited := by
  rw [edit.apply_eq_changed, changed_eq_ok] at happly
  rcases change_cases h edit with ⟨fault, -, hrun⟩ | ⟨slot, value, found, hwrites, hrun, hwritten⟩
  · rw [hrun] at happly
    cases happly
  · rw [hrun] at happly
    cases happly
    exact ⟨slot, value, hwrites, hwritten⟩

/-- Of regular settings, an edit fails exactly where it is rejected. -/
theorem apply_eq_error_iff {edit : Edit} {fault : Fault} : edit.apply settings = .error fault ↔
    ∃ rejection, fault = .edit rejection ∧ edit.Rejects rejection := by
  rw [edit.apply_eq_changed, changed_eq_error]
  constructor
  · intro hfault
    rcases change_cases h edit with ⟨rejection, hrejects, hrun⟩ | ⟨_, _, _, -, hrun, -⟩
    · rw [hrun] at hfault
      cases hfault
      exact ⟨rejection, rfl, hrejects⟩
    · rw [hrun] at hfault
      cases hfault
  · rintro ⟨rejection, rfl, hrejects⟩
    rw [Edit.run_of_rejects hrejects]

end

end FlakeLint.Settings
