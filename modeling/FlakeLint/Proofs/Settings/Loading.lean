-- SUMMARY: Loaded settings: every setting has a value that it accepts, so checkers can be selected.
import FlakeLint.Checker.Selection
import FlakeLint.Discovery
import FlakeLint.Proofs.Table
import FlakeLint.Proofs.Text.Utf16
import FlakeLint.Proofs.Text.Utf8
import FlakeLint.Proofs.Traversal
import FlakeLint.Settings.File

/-!
# Loaded settings

Whatever a settings file holds, the settings that come of it are the defaults
with accepted values written over them. That each setting has an accepted value
is an invariant of reading, entry by entry.
-/

namespace FlakeLint

/-! ## Texts of files -/

theorem unifyBreaks_eq_self {cs : List Char} (h : '\r' ∉ cs) : unifyBreaks cs = cs := by
  fun_induction unifyBreaks cs with
  | case1 cs ih => exact absurd List.mem_cons_self h
  | case2 cs _ ih => exact absurd List.mem_cons_self h
  | case3 c cs _ _ ih => rw [ih (List.not_mem_of_not_mem_cons h)]
  | case4 => rfl

/-- A text without carriage returns is read from its file as it was encoded. -/
theorem File.text_encode {cs : List Char} (h : '\r' ∉ cs) {file : File}
    (hfile : file.bytes = Utf8.encode cs) : file.text = .ok cs := by
  simp [File.text, hfile, Utf8.decodeStrict_encode, unifyBreaks_eq_self h]

/-! ## The invariant of reading -/

namespace Setting

theorem key_of_ofKey? {key : Utf16} {setting : Setting} (h : ofKey? key = some setting) :
    setting.key = key := by
  simpa using List.find?_some h

theorem name_injective {a b : Setting} (h : a.name = b.name) : a = b := by
  cases a <;> cases b <;> first | rfl | exact absurd h (by decide)

theorem key_injective {a b : Setting} (h : a.key = b.key) : a = b :=
  name_injective (Utf16.ofString_injective h)

/-- Every default is a value that its setting can have. -/
theorem accepts_default (setting : Setting) : setting.accepts setting.default = true := by
  cases setting <;> rfl

end Setting

namespace Settings

/-- Every setting that is there has a value that it accepts. -/
def IsValid (settings : Settings) : Prop :=
  ∀ (setting : Setting) (value : Json), settings.get? setting.key = some value →
    setting.accepts value = true

/-- Every setting is there, with a value that it accepts. -/
def IsSound (settings : Settings) : Prop :=
  ∀ setting : Setting, ∃ value, settings.get? setting.key = some value ∧
    setting.accepts value = true

/-- The settings are what reading a settings file came to, on some disk. -/
def IsLoaded (settings : Settings) : Prop :=
  ∃ depth disk path notices, load depth disk path = .ok (settings, notices)

theorem isValid_of_isSound {settings : Settings} (h : settings.IsSound) : settings.IsValid := by
  intro setting value hvalue
  obtain ⟨found, hfound, haccepts⟩ := h setting
  obtain rfl := Option.some.inj (hfound.symm.trans hvalue)
  exact haccepts

theorem defaults_isSound : IsSound defaults := by
  intro setting
  refine ⟨setting.default, ?_, setting.accepts_default⟩
  cases setting <;> rfl

theorem put_isSound {settings : Settings} (h : settings.IsSound) (setting : Setting) {value : Json}
    (hvalue : setting.accepts value = true) : IsSound (settings.put setting.key value) := by
  intro other
  by_cases hname : other.key = setting.key
  · obtain rfl := Setting.key_injective hname
    exact ⟨value, Table.get?_put_self settings _ value, hvalue⟩
  · rw [Table.get?_put_of_ne settings value hname]
    exact h other

/-- Flags written over flags are flags. -/
theorem accepts_update {old new : Table Utf16 Json}
    (hold : Setting.checkers.accepts (.table old) = true)
    (hnew : Setting.checkers.accepts (.table new) = true) :
    Setting.checkers.accepts (.table (old.update new)) = true := by
  simp only [Setting.accepts, List.all_eq_true] at hold hnew ⊢
  exact Table.forall_mem_update (P := fun flag : Json => flag.isBool = true) hold hnew

theorem adopt_isSound {settings : Settings} (h : settings.IsSound) (path : String) (key : Utf16)
    (value : Json) : IsSound (adopt path settings key value).1 := by
  unfold adopt
  split
  · exact h
  · next setting hsetting =>
    obtain rfl := Setting.key_of_ofKey? hsetting
    split
    · exact h
    · next haccepts =>
      rw [Bool.not_eq_true, Bool.not_eq_false'] at haccepts
      split
      · next old new hold =>
        obtain ⟨flags, hflags, hflags'⟩ := h .checkers
        rw [hold] at hflags
        cases hflags
        exact put_isSound h .checkers (accepts_update hflags' haccepts)
      · exact put_isSound h _ haccepts

/-- Loaded settings come about by taking over entries: what holds of the defaults and is kept by every
entry holds of them. -/
theorem load_induction {P : Settings → Prop} (hdefaults : P defaults)
    (hadopt : ∀ path settings key value, P settings → P (adopt path settings key value).1)
    {depth : Nat} {disk : Disk} {path : String} {settings : Settings} {notices : List Notice}
    (h : load depth disk path = .ok (settings, notices)) : P settings := by
  have hadoptAll : ∀ path entries settings, P settings → P (adoptAll path settings entries).1 := by
    intro path entries
    induction entries with
    | nil => exact fun _ hsettings => hsettings
    | cons entry rest ih => exact fun _ hsettings => ih _ (hadopt _ _ _ _ hsettings)
  have hofText : ∀ path text settings notices,
      ofText depth path text = .ok (settings, notices) → P settings := by
    intro path text settings notices h
    unfold ofText at h
    split at h
    · next entries _ =>
      obtain ⟨rfl, -⟩ := Prod.mk.inj (Except.ok.inj h)
      exact hadoptAll path entries defaults hdefaults
    · cases h
      exact hdefaults
    · cases h
      exact hdefaults
    · cases h
    · cases h
  unfold load at h
  dsimp only at h
  split at h
  · split at h
    · exact hofText _ _ _ _ h
    · cases h
      exact hdefaults
  · cases h
    exact hdefaults

theorem isSound_of_isLoaded {settings : Settings} (h : settings.IsLoaded) : settings.IsSound := by
  obtain ⟨depth, disk, path, notices, hload⟩ := h
  exact load_induction defaults_isSound
    (fun path _ key value hsound => adopt_isSound hsound path key value) hload

/-! ## What checkers and discovery ask for -/

variable {settings : Settings}

/-- Is the checker on? It is unless its flag counts as false. -/
def isOn (settings : Settings) (checker : Checker) : Bool :=
  match settings.get? Setting.checkers.key with
  | some (.table flags) => ((Table.get? flags checker.key).getD (.bool true)).isTrue
  | _ => true

/-- The checkers that are on and belong to the framework, in the order of all checkers. -/
def checkersFor (settings : Settings) (framework : Option Framework) : List Checker :=
  Checker.all.filter fun checker =>
    settings.isOn checker && decide (framework = some checker.framework)

/-- Valid settings say of every checker whether it is on. -/
theorem isEnabled_eq (h : settings.IsValid) (checker : Checker) :
    checker.isEnabled (.table settings) = .ok (settings.isOn checker) := by
  cases settings with
  | nil => rfl
  | cons entry rest =>
    have htrue : (Json.table (entry :: rest)).isTrue = true := rfl
    have hfield : (Json.table (entry :: rest)).field? "checkers" =
        .ok (Table.get? (entry :: rest) Setting.checkers.key) := rfl
    unfold Checker.isEnabled isOn
    rw [htrue, hfield]
    cases hvalue : Table.get? (entry :: rest) Setting.checkers.key with
    | none => rfl
    | some value =>
      have haccepts := h .checkers value hvalue
      cases value with
      | table flags => cases flags <;> rfl
      | _ => cases haccepts

/-- Valid settings say which checkers run. -/
theorem running_eq (h : settings.IsValid) (framework : Option Framework) :
    Checker.running (.table settings) framework = .ok (settings.checkersFor framework) := by
  cases framework with
  | none => simp [Checker.running, checkersFor]
  | some framework =>
    unfold Checker.running checkersFor
    dsimp only
    rw [filterM_eq_ok_filter fun checker _ => isEnabled_eq h checker, List.filter_filter]
    simp only [Option.some.injEq, eq_comm]

/-- No framework has more than one checker. -/
theorem length_checkersFor_le (settings : Settings) (framework : Option Framework) :
    (settings.checkersFor framework).length ≤ 1 := by
  unfold checkersFor
  rw [← List.filter_filter]
  refine Nat.le_trans (List.length_filter_le _ _) ?_
  cases framework with
  | none => decide
  | some framework => cases framework <;> decide

theorem exists_map_ofItem_eq {items : List Json} (h : ∀ item ∈ items, item.isText = true) :
    ∃ patterns : List Utf16, items.map Discovery.Exclusion.ofItem = patterns.map .pattern := by
  induction items with
  | nil => exact ⟨[], rfl⟩
  | cons item items ih =>
    rw [List.forall_mem_cons] at h
    obtain ⟨patterns, hpatterns⟩ := ih h.2
    cases item with
    | text text => exact ⟨text :: patterns, congrArg (Discovery.Exclusion.pattern text :: ·) hpatterns⟩
    | _ => cases h.1

/-- The exclusions of valid settings are texts. -/
theorem exclusions_ok (h : settings.IsValid) :
    ∃ patterns : List Utf16, Discovery.Exclusion.ofSetting (settings.value .exclude) =
      .ok (patterns.map .pattern) := by
  unfold Settings.value
  cases hvalue : settings.get? Setting.exclude.key with
  | none => exact ⟨[], rfl⟩
  | some value =>
    have haccepts := h .exclude value hvalue
    cases value with
    | list items =>
      obtain ⟨patterns, hpatterns⟩ := exists_map_ofItem_eq (List.all_eq_true.1 haccepts)
      unfold Discovery.Exclusion.ofSetting
      split
      · exact ⟨[], rfl⟩
      · exact ⟨patterns, congrArg Except.ok hpatterns⟩
    | _ => cases haccepts

end Settings

end FlakeLint
