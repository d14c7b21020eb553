-- SUMMARY: A setting is loaded from the last value that a document gives it, whatever else stands there.
import FlakeLint.Proofs.Json.Entries
import FlakeLint.Proofs.Settings.Limits

/-!
# Fallbacks

Settings are loaded one by one. What a setting becomes is decided by the last value
that the document lists for it: an accepted value is used, and the default stays in
place of any other. Each setting with an unfit value is reported once, where its name
stands first, and nothing that is said of one name touches another.
-/

namespace FlakeLint

-- ---------------------------------------------------------------------------
-- What a value comes to
-- ---------------------------------------------------------------------------

namespace Setting

/-- The flags of the checkers unless a document says otherwise. -/
def defaultFlags : Table Utf16 Json :=
  Checker.all.map fun checker => (↑checker.key, .bool true)

/-- What an accepted value is used as: flags are written over those that all checkers have. -/
def used : Setting → Json → Json
  | .checkers, .table flags => .table (Table.update defaultFlags flags)
  | _, value => value

/-- What a setting is loaded as if the document's last value for it, if there is any, is the given one. -/
def loadedAs (setting : Setting) : Option Json → Json
  | some value => if setting.accepts value then setting.used value else setting.default
  | none => setting.default

/-- The loaded flag of a name is the last one that is listed for it, or else that of the checkers. -/
theorem exists_loadedAs_flags {flags : Table Utf16 Json} (h : checkers.accepts (.table flags)) :
    ∃ loaded, checkers.loadedAs (some (.table flags)) = .table loaded ∧
      ∀ name, Table.get? loaded name = (Table.last? flags name).or (Table.get? defaultFlags name) :=
  ⟨Table.update defaultFlags flags, if_pos h, Table.get?_update defaultFlags flags⟩

end Setting

namespace Settings

-- ---------------------------------------------------------------------------
-- Taking over entries
-- ---------------------------------------------------------------------------

section

variable (path : String) (settings : Settings)

theorem get?_adopt_of_ne {key other : Utf16} (value : Json) (h : other ≠ key) :
    (adopt path settings key value).1.get? other = settings.get? other := by
  unfold adopt
  split
  · rfl
  · split
    · rfl
    · split <;> exact Table.get?_put_of_ne settings _ h

theorem get?_adopt_key {setting : Setting}
    (hdefault : settings.get? setting.key = some setting.default) (value : Json) :
    (adopt path settings setting.key value).1.get? setting.key =
      some (setting.loadedAs (some value)) := by
  simp only [adopt, setting.ofKey?_key, Setting.loadedAs]
  by_cases haccepts : setting.accepts value
  · simp only [haccepts, Bool.not_true, Bool.false_eq_true, if_false, if_true]
    split
    · next old new hold =>
      cases hdefault.symm.trans hold
      exact Table.get?_put_self _ _ _
    · next hother =>
      rw [Table.get?_put_self]
      unfold Setting.used
      split
      · next flags => exact absurd rfl (hother Setting.defaultFlags flags rfl hdefault)
      · rfl
  · simpa [haccepts] using hdefault

variable {entries : List (Utf16 × Json)}

theorem get?_adoptAll_of_not_mem {other : Utf16} (h : other ∉ Table.keys entries) :
    (adoptAll path settings entries).1.get? other = settings.get? other := by
  induction entries generalizing settings with
  | nil => rfl
  | cons entry rest ih =>
    rw [Table.keys_cons, List.mem_cons, not_or] at h
    exact (ih _ h.2).trans (get?_adopt_of_ne path settings entry.2 h.1)

/-- Only the entry for a setting has a say in what it becomes. -/
theorem get?_adoptAll (hnodup : (Table.keys entries).Nodup) {setting : Setting}
    (hdefault : settings.get? setting.key = some setting.default) :
    (adoptAll path settings entries).1.get? setting.key =
      some (setting.loadedAs (Table.get? entries setting.key)) := by
  induction entries generalizing settings with
  | nil => exact hdefault
  | cons entry rest ih =>
    rw [Table.keys_cons, List.nodup_cons] at hnodup
    rw [Table.get?_cons]
    by_cases hkey : entry.1 = setting.key
    · rw [if_pos hkey]
      have hrest : setting.key ∉ Table.keys rest := hkey ▸ hnodup.1
      refine (get?_adoptAll_of_not_mem path _ hrest).trans ?_
      rw [hkey]
      exact get?_adopt_key path settings hdefault entry.2
    · rw [if_neg hkey]
      exact ih _ hnodup.2 ((get?_adopt_of_ne path settings entry.2 (Ne.symm hkey)).trans hdefault)

end

theorem get?_defaults (setting : Setting) : defaults.get? setting.key = some setting.default := by
  cases setting <;> rfl

-- ---------------------------------------------------------------------------
-- What is reported
-- ---------------------------------------------------------------------------

/-- What a message warns of, if it is a warning. -/
def warning? : Message → Option String
  | .warning text => some text
  | _ => none

/-- The warnings among what is said about notices. -/
def warnings (notices : List Notice) : List String :=
  (notices.flatMap Notice.messages).filterMap warning?

/-- Is this the key of a setting that does not accept the value? -/
def rejects (key : Utf16) (value : Json) : Bool :=
  (Setting.ofKey? key).any fun setting => !setting.accepts value

/-- Is the last value that is listed for the key one that its setting does not accept? -/
def isUnfit (listed : List (Utf16 × Json)) (key : Utf16) : Bool :=
  (Table.last? listed key).any (rejects key)

def unfitWarning (path : String) (key : Utf16) : String :=
  s!"Invalid value for '{key.shown}' in {path}; using default."

theorem warnings_append (first second : List Notice) :
    warnings (first ++ second) = warnings first ++ warnings second := by
  simp [warnings]

section

variable (path : String) (settings : Settings)

theorem warnings_adopt (key : Utf16) (value : Json) :
    warnings (adopt path settings key value).2.toList =
      if rejects key value then [unfitWarning path key] else [] := by
  unfold adopt rejects
  cases Setting.ofKey? key with
  | none => rfl
  | some setting =>
    dsimp only
    rw [Option.any_some]
    split
    · rfl
    · split <;> rfl

theorem warnings_adoptAll (entries : List (Utf16 × Json)) :
    warnings (adoptAll path settings entries).2 =
      (entries.filter fun entry => rejects entry.1 entry.2).map fun entry =>
        unfitWarning path entry.1 := by
  induction entries generalizing settings with
  | nil => rfl
  | cons entry rest ih =>
    rw [adoptAll, warnings_append, warnings_adopt, ih, List.filter_cons]
    split <;> rfl

theorem warnings_adoptAll_ofList (listed : List (Utf16 × Json)) :
    warnings (adoptAll path settings (Table.ofList listed)).2 =
      ((Table.keys listed).eraseDups.filter (isUnfit listed)).map (unfitWarning path) := by
  have hnodup := Table.nodup_keys_ofList listed
  have hunfit : ∀ entry ∈ Table.ofList listed,
      rejects entry.1 entry.2 = isUnfit listed entry.1 := by
    intro entry hentry
    rw [isUnfit, ← Table.get?_ofList, Table.get?_of_mem hnodup hentry, Option.any_some]
  rw [warnings_adoptAll, List.filter_congr hunfit, ← Table.keys_ofList, Table.keys, List.filter_map,
    List.map_map]
  rfl

end

-- ---------------------------------------------------------------------------
-- Loading
-- ---------------------------------------------------------------------------

/-- Where the file is a document that is a table, each setting becomes what the last value listed for it
comes to, or keeps its default; flags that are listed are written over those of the checkers. There is
one warning for each setting whose last value is unfit, in the order in which the names are first listed.
Other names have no effect. -/
theorem load_from_last_values {depth : Nat} {disk : Disk} {path : String} {text : List Char}
    {entries : List (Utf16 × Json)} (hheld : heldText? disk path = some text)
    (hparse : Json.parseWithin depth text = .ok (.table entries)) :
    ∃ listed notices, Json.Lists depth text listed ∧
      load depth disk path = .ok (Setting.all.map fun setting =>
        (setting.key, setting.loadedAs (Table.last? listed setting.key)), notices) ∧
      (∀ flags, Table.last? listed Setting.checkers.key = some (.table flags) →
        Setting.checkers.accepts (.table flags) → ∃ loaded,
          Setting.checkers.loadedAs (Table.last? listed Setting.checkers.key) = .table loaded ∧
          ∀ name, Table.get? loaded name =
            (Table.last? flags name).or (Table.get? Setting.defaultFlags name)) ∧
      warnings notices =
        ((Table.keys listed).eraseDups.filter (isUnfit listed)).map fun key =>
          s!"Invalid value for '{key.shown}' in {Path.normalized path}; using default." := by
  obtain ⟨listed, hlists, rfl⟩ := Json.exists_listed_of_parseWithin hparse
  have hload : load depth disk path =
      .ok (adoptAll (Path.normalized path) defaults (Table.ofList listed)) := by
    simp only [load_of_heldText? hheld, ofText, hparse]
  have hregular := isRegular_of_load hload
  have hfound : ∀ setting ∈ Setting.all,
      Table.get? (adoptAll (Path.normalized path) defaults (Table.ofList listed)).1 setting.key =
        some (setting.loadedAs (Table.last? listed setting.key)) := by
    intro setting _
    rw [← Table.get?_ofList]
    exact get?_adoptAll _ _ (Table.nodup_keys_ofList listed) (get?_defaults setting)
  have hsettings := Table.eq_map_of_keys hregular.names Setting.nodup_keys hfound
  refine ⟨listed, _, hlists, hload.trans (congrArg Except.ok (Prod.ext hsettings rfl)), ?_,
    warnings_adoptAll_ofList _ _ listed⟩
  intro flags hflags haccepts
  rw [hflags]
  exact Setting.exists_loadedAs_flags haccepts

namespace Sample

/-- A document that lists one name twice, and a format that there is not. -/
def repeatingText : List Char :=
  ("\x7b\n" ++
    "  \"issue_explain\": null,\n" ++
    "  \"output_format\": \"xml\",\n" ++
    "  \"issue_explain\": true,\n" ++
    "  \"checkers\": \x7b\n" ++
    "    \"raceConditionAnalysis\": false\n" ++
    "  \x7d\n" ++
    "\x7d\n").toList

def repeatingListed : List (Utf16 × Json) := [
  ("issue_explain", .null), ("output_format", .text "xml"), ("issue_explain", .bool true),
  ("checkers", .table [("raceConditionAnalysis", .bool false)])]

def repeatingEntries : List (Utf16 × Json) := [
  ("issue_explain", .bool true), ("output_format", .text "xml"),
  ("checkers", .table [("raceConditionAnalysis", .bool false)])]

def repeatingSettings : Settings :=
  (Table.put defaults "issue_explain" (.bool true)).put "checkers" (.table [
    ("raceConditionAnalysis", .bool false), ("playwrightHardWaits", .bool true)])

theorem parseWithin_repeatingText :
    Json.parseWithin 2 repeatingText = .ok (.table repeatingEntries) := by
  have htext : repeatingText = Json.write .ascii 0 (.table repeatingListed) ++ ['\n'] := by
    decide +kernel
  have hentries : Table.ofList repeatingListed = repeatingEntries := rfl
  rw [htext, ← hentries]
  exact Json.parseWithin_writeTable .ascii 0 rfl (Json.isGap_of_mem_newline 0)

end Sample

/-- Of a switch that is listed twice the last value is used, an unknown format is reported and left at its
default, and one checker is switched off. -/
theorem load_from_last_values_repeated :
    let disk := Sample.settingsDisk (Utf8.encode Sample.repeatingText)
    heldText? disk "settings.json" = some Sample.repeatingText ∧
    Json.parseWithin 2 Sample.repeatingText = .ok (.table Sample.repeatingEntries) ∧
    ∃ listed notices, Json.Lists 2 Sample.repeatingText listed ∧
      load 2 disk "settings.json" = .ok (Setting.all.map fun setting =>
        (setting.key, setting.loadedAs (Table.last? listed setting.key)), notices) ∧
      Setting.explain.loadedAs (Table.last? listed "issue_explain") = .bool true ∧
      Setting.format.loadedAs (Table.last? listed "output_format") = .text "console" ∧
      Setting.checkers.loadedAs (Table.last? listed "checkers") =
        .table [("raceConditionAnalysis", .bool false), ("playwrightHardWaits", .bool true)] ∧
      warnings notices = ["Invalid value for 'output_format' in settings.json; using default."] := by
  intro disk
  have hheld : heldText? disk "settings.json" = some Sample.repeatingText :=
    heldText?_settingsDisk (by decide +kernel)
  have hpath : Path.normalized "settings.json" = "settings.json" := rfl
  obtain ⟨listed, notices, hlists, hload, -, -⟩ :=
    load_from_last_values hheld Sample.parseWithin_repeatingText
  have htext : load 2 disk "settings.json" =
      .ok (Sample.repeatingSettings, [.unfitValue "settings.json" "output_format"]) := by
    simp only [load_of_heldText? hheld, hpath, ofText, Sample.parseWithin_repeatingText]
    rfl
  obtain ⟨hsettings, hnotices⟩ := Prod.mk.inj (Except.ok.inj (hload.symm.trans htext))
  have hvalue (setting : Setting) : some (setting.loadedAs (Table.last? listed setting.key)) =
      Table.get? Sample.repeatingSettings setting.key := by
    rw [← hsettings]
    cases setting <;> rfl
  exact ⟨hheld, Sample.parseWithin_repeatingText, listed, notices, hlists, hload,
    Option.some_inj.1 (hvalue .explain), Option.some_inj.1 (hvalue .format),
    Option.some_inj.1 (hvalue .checkers), hnotices ▸ rfl⟩

end Settings

end FlakeLint
