-- SUMMARY: The choices that a project can make: regular settings are one value of the right type for each.
import FlakeLint.Proofs.Settings.Reload
import Mathlib.Data.Set.List

/-!
# Choices

The table of settings holds values of any shape. Regular settings are the tables that
come of choices: a flag for every checker, one of the report formats, three switches,
patterns to exclude and a path.
-/

namespace FlakeLint

/-- What a project can choose. The flags name every checker, and may name others. -/
structure Choices where
  flags : Table Utf16 Bool
  format : ReportFormat
  explain : Bool
  fileSummary : Bool
  codebase : Bool
  exclude : List Utf16
  scorecardPath : Utf16
  covers : ∀ checker : Checker, ↑checker.key ∈ Table.keys flags

namespace Choices

/-- The value of a setting. -/
def value (choices : Choices) : Setting → Json
  | .checkers => .table (choices.flags.map fun (key, flag) => (key, .bool flag))
  | .format => .text choices.format.name
  | .explain => .bool choices.explain
  | .fileSummary => .bool choices.fileSummary
  | .codebase => .bool choices.codebase
  | .exclude => .list (choices.exclude.map Json.text)
  | .scorecardPath => .text choices.scorecardPath

/-- The choices as settings: these names, in this order, and no others. -/
def settings (choices : Choices) : Settings :=
  Setting.all.map fun setting => (setting.key, choices.value setting)

end Choices

-- ---------------------------------------------------------------------------
-- Values and what they are chosen from
-- ---------------------------------------------------------------------------

theorem exists_map_eq {α β : Type} {f : α → β} {bs : List β} (h : ∀ b ∈ bs, ∃ a, f a = b) :
    ∃ as, List.map f as = bs := by
  have hmem : bs ∈ Set.range (List.map f) := by
    rw [Set.range_list_map]
    exact h
  exact hmem

namespace Setting

variable {value : Json}

theorem exists_flags_of_accepts (h : Setting.checkers.accepts value) :
    ∃ flags : Table Utf16 Bool, .table (flags.map fun (key, flag) => (key, .bool flag)) = value := by
  cases value with
  | table entries =>
    have hflags : ∀ entry ∈ entries, ∃ flag : Utf16 × Bool, (flag.1, Json.bool flag.2) = entry := by
      intro (key, flag) hentry
      have hbool : flag.isBool := List.all_eq_true.1 h _ hentry
      cases flag with
      | bool flag => exact ⟨(key, flag), rfl⟩
      | _ => cases hbool
    obtain ⟨flags, hflags⟩ := exists_map_eq hflags
    exact ⟨flags, congrArg Json.table hflags⟩
  | _ => cases h

theorem exists_format_of_accepts (h : Setting.format.accepts value) :
    ∃ format : ReportFormat, .text format.name = value := by
  cases value with
  | text text =>
    obtain ⟨name, hname, hsame⟩ := List.any_eq_true.1 h
    obtain ⟨format, -, rfl⟩ := List.mem_map.1 hname
    exact ⟨format, congrArg Json.text (of_decide_eq_true hsame)⟩
  | _ => cases h

theorem exists_patterns_of_accepts (h : Setting.exclude.accepts value) :
    ∃ patterns : List Utf16, .list (patterns.map Json.text) = value := by
  cases value with
  | list items =>
    have htexts : ∀ item ∈ items, ∃ text, Json.text text = item := by
      intro item hitem
      have htext : item.isText := List.all_eq_true.1 h item hitem
      cases item with
      | text text => exact ⟨text, rfl⟩
      | _ => cases htext
    obtain ⟨patterns, hpatterns⟩ := exists_map_eq htexts
    exact ⟨patterns, congrArg Json.list hpatterns⟩
  | _ => cases h

theorem exists_path_of_accepts (h : Setting.scorecardPath.accepts value) :
    ∃ path, .text path = value := by
  cases value with
  | text path => exact ⟨path, rfl⟩
  | _ => cases h

/-- The settings that are switched on or off. -/
def isSwitch : Setting → Bool
  | .explain | .fileSummary | .codebase => true
  | _ => false

theorem exists_switch_of_accepts {setting : Setting} (hswitch : setting.isSwitch)
    (h : setting.accepts value) : ∃ flag, .bool flag = value := by
  cases setting with
  | explain | fileSummary | codebase =>
    cases value with
    | bool flag => exact ⟨flag, rfl⟩
    | _ => cases h
  | _ => cases hswitch

end Setting

-- ---------------------------------------------------------------------------
-- Regular settings
-- ---------------------------------------------------------------------------

theorem Checker.mem_all (checker : Checker) : checker ∈ all := by
  cases checker <;> decide

namespace Settings

variable {settings : Settings}

/-- The settings come of choices. -/
def IsChosen (settings : Settings) : Prop :=
  ∃ choices : Choices, choices.settings = settings

/-- Regular settings are the ones that come of choices. -/
theorem IsRegular.isChosen (h : settings.IsRegular) : settings.IsChosen := by
  obtain ⟨entries, hget, haccepts, hall⟩ := h.exists_flags
  obtain ⟨flags, hflags⟩ := Setting.exists_flags_of_accepts haccepts
  obtain ⟨_, hformat, haccepts⟩ := h.sound .format
  obtain ⟨format, rfl⟩ := Setting.exists_format_of_accepts haccepts
  obtain ⟨_, hexplain, haccepts⟩ := h.sound .explain
  obtain ⟨explain, rfl⟩ := Setting.exists_switch_of_accepts rfl haccepts
  obtain ⟨_, hfileSummary, haccepts⟩ := h.sound .fileSummary
  obtain ⟨fileSummary, rfl⟩ := Setting.exists_switch_of_accepts rfl haccepts
  obtain ⟨_, hcodebase, haccepts⟩ := h.sound .codebase
  obtain ⟨codebase, rfl⟩ := Setting.exists_switch_of_accepts rfl haccepts
  obtain ⟨_, hexclude, haccepts⟩ := h.sound .exclude
  obtain ⟨exclude, rfl⟩ := Setting.exists_patterns_of_accepts haccepts
  obtain ⟨_, hpath, haccepts⟩ := h.sound .scorecardPath
  obtain ⟨scorecardPath, rfl⟩ := Setting.exists_path_of_accepts haccepts
  have hkeys : Table.keys entries = Table.keys flags := by
    obtain rfl : flags.map (fun (key, flag) => (key, Json.bool flag)) = entries := Json.table.inj hflags
    simp [Table.keys, Function.comp_def]
  have hcovers : ∀ checker : Checker, ↑checker.key ∈ Table.keys flags := fun checker =>
    hkeys ▸ hall.start.subset (List.mem_map_of_mem checker.mem_all)
  let choices : Choices :=
    ⟨flags, format, explain, fileSummary, codebase, exclude, scorecardPath, hcovers⟩
  have hfound : ∀ setting ∈ Setting.all, settings.get? setting.key = some (choices.value setting) := by
    intro setting _
    cases setting with
    | checkers => rw [hget, ← hflags]; rfl
    | format => exact hformat
    | explain => exact hexplain
    | fileSummary => exact hfileSummary
    | codebase => exact hcodebase
    | exclude => exact hexclude
    | scorecardPath => exact hpath
  exact ⟨choices, (Table.eq_map_of_keys h.names Setting.nodup_keys hfound).symm⟩

end Settings

end FlakeLint
