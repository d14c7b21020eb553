-- SUMMARY: Settings keep their shape however they are edited, saved, loaded and overridden.
import FlakeLint.Proofs.Scan.Search
import FlakeLint.Proofs.Settings.Choices
import FlakeLint.Proofs.Settings.Persistence

/-!
# Sessions

A session starts with settings that were loaded. Edits, saving, loading again and the
overrides of a scan follow one another in any order, and some of them are refused.
Each keeps the settings regular and, where it is refused, leaves them alone; so they
come of choices at every moment, and no scan meets a value of the wrong type.
-/

namespace FlakeLint

namespace Settings

-- ---------------------------------------------------------------------------
-- Overrides
-- ---------------------------------------------------------------------------

/-- An override that a setting can take: none at all, or a value that it accepts and that is no
table. -/
def IsFitting (key : Utf16) (value : Json) : Prop :=
  value = .null ∨ ∃ setting : Setting, setting.key = key ∧ setting.accepts value ∧
    ∀ flags, value ≠ .table flags

theorem extend_texts {old new : List Json} (hold : old.all Json.isText) (hnew : new.all Json.isText) :
    (extend old new).all Json.isText := by
  unfold extend
  induction new generalizing old with
  | nil => exact hold
  | cons item new ih =>
    rw [List.all_cons, Bool.and_eq_true] at hnew
    rw [List.foldl_cons]
    apply ih _ hnew.2
    split
    · exact hold
    · simp [hold, hnew.1]

section

variable {settings : Settings} (h : settings.IsRegular)
include h

theorem override_isRegular {key : Utf16} {value : Json} (hfitting : IsFitting key value) :
    ∃ overridden, settings.override key value = .ok overridden ∧ overridden.IsRegular := by
  rcases hfitting with rfl | ⟨setting, rfl, haccepts, htable⟩
  · exact ⟨settings, rfl, h⟩
  · have hput : IsRegular (settings.put setting.key value) :=
      put_isRegular h setting haccepts fun flags hvalue => absurd hvalue (htable flags)
    cases value with
    | table flags => exact absurd rfl (htable flags)
    | null => exact ⟨settings, rfl, h⟩
    | bool | number | text => exact ⟨_, by simp only [override, setting.ofKey?_key], hput⟩
    | list new =>
      obtain rfl := Setting.eq_exclude_of_accepts haccepts
      obtain ⟨value, hvalue, hold⟩ := h.sound .exclude
      cases value with
      | list old =>
        refine ⟨settings.put Setting.exclude.key (.list (extend old new)), ?_, ?_⟩
        · simp only [override, Setting.ofKey?_key, hvalue, Option.getD_some]
        · exact put_isRegular h .exclude (extend_texts hold haccepts) fun flags hflags => by cases hflags
      | _ => cases hold

theorem merge_isRegular {overrides : List (Utf16 × Json)}
    (hall : ∀ entry ∈ overrides, IsFitting entry.1 entry.2) :
    ∃ merged, settings.merge overrides = .ok merged ∧ merged.IsRegular := by
  apply foldlM_invariant h
  intro entry hentry settings hsettings
  exact override_isRegular hsettings (hall entry hentry)

end

theorem getD_isFitting (setting : Setting) {value : Option Json}
    (h : ∀ found ∈ value, setting.accepts found ∧ ∀ flags, found ≠ .table flags) :
    IsFitting setting.key (value.getD .null) := by
  cases value with
  | none => exact .inl rfl
  | some found => exact .inr ⟨setting, rfl, h found rfl⟩

theorem switch_isFitting {setting : Setting} (h : setting.isSwitch) (asked flag : Bool) :
    IsFitting setting.key ((if asked then some (.bool flag) else none : Option Json).getD .null) := by
  apply getD_isFitting
  intro found hfound
  obtain ⟨-, rfl⟩ : asked ∧ Json.bool flag = found := by simpa using hfound
  cases setting with
  | explain | fileSummary | codebase => exact ⟨rfl, by simp⟩
  | _ => cases h

/-- Whatever a scan is asked for, its overrides fit. -/
theorem overrides_isFitting (request : ScanRequest) :
    ∀ entry ∈ request.overrides, IsFitting entry.1 entry.2 := by
  unfold ScanRequest.overrides
  simp only [List.forall_mem_cons]
  refine ⟨switch_isFitting rfl _ _, switch_isFitting rfl _ _, switch_isFitting rfl _ _,
    getD_isFitting .exclude ?_, getD_isFitting .format ?_, getD_isFitting .scorecardPath ?_, by simp⟩
  · intro found hfound
    obtain ⟨-, rfl⟩ : request.exclude ≠ [] ∧ Json.list (request.exclude.map Json.ofString) = found := by
      simpa using hfound
    simp [Setting.accepts, Json.ofString, Json.isText]
  · intro found hfound
    obtain ⟨format, -, rfl⟩ := Option.map_eq_some_iff.1 hfound
    cases format <;> simp [Setting.accepts, ReportFormat.names, ReportFormat.all]
  · intro found hfound
    rcases hscorecard : request.scorecard with _ | _ | path <;> rw [hscorecard] at hfound
    · cases hfound
    · cases hfound
    · cases hfound
      simp [Setting.accepts]

end Settings

-- ---------------------------------------------------------------------------
-- Operations
-- ---------------------------------------------------------------------------

open Settings (Edit)

/-- What can be done with settings in a session. -/
inductive Operation where
  | change (edit : Edit)
  | save (path : String)
  /-- Load the settings file at a path, with a reader that goes so deep. -/
  | load (depth : Nat) (path : String)
  /-- Take over what a scan overrides. -/
  | merge (request : ScanRequest)

/-- Settings in memory, and the disk that they are saved to and loaded from. -/
structure Session where
  disk : Disk
  settings : Settings

/-- The session with settings that come from elsewhere, if there are any. -/
def Session.taking (session : Session) : Except Fault Settings → Except Fault Unit × Session
  | .ok settings => (.ok (), { session with settings })
  | .error fault => (.error fault, session)

namespace Operation

/-- How an operation ends, and the session that it leaves. -/
def run (session : Session) : Operation → Except Fault Unit × Session
  | .change edit =>
    let changed := edit.change.run session.settings
    (changed.1, { session with settings := changed.2 })
  | .save path =>
    let saved := session.settings.save session.disk path
    (saved.2, { session with disk := saved.1 })
  | .load depth path => session.taking ((Settings.load depth session.disk path).map Prod.fst)
  | .merge request => session.taking (session.settings.merge request.overrides)

variable {session : Session}

theorem run_load (depth : Nat) (path : String) : (load depth path).run session =
    session.taking ((Settings.load depth session.disk path).map Prod.fst) := by
  unfold run
  rfl

theorem run_merge (request : ScanRequest) : (merge request).run session =
    session.taking (session.settings.merge request.overrides) := by
  unfold run
  rfl

theorem settings_taking_of_error {result : Except Fault Settings} {fault : Fault}
    (h : (session.taking result).1 = .error fault) :
    (session.taking result).2.settings = session.settings := by
  cases result with
  | ok settings => cases h
  | error fault => rfl

theorem taking_isRegular (h : session.settings.IsRegular) {result : Except Fault Settings}
    (hresult : ∀ settings, result = .ok settings → settings.IsRegular) :
    (session.taking result).2.settings.IsRegular := by
  cases result with
  | ok settings => exact hresult settings rfl
  | error fault => exact h

/-- An operation that is refused leaves the settings as they were, whatever they are. -/
theorem settings_of_error {operation : Operation} {fault : Fault}
    (h : (operation.run session).1 = .error fault) :
    (operation.run session).2.settings = session.settings := by
  cases operation with
  | change edit => exact edit.change_isAtomic session.settings fault _ (Prod.ext_iff.2 ⟨h, rfl⟩)
  | save path => rfl
  | load depth path =>
    rw [run_load] at h ⊢
    exact settings_taking_of_error h
  | merge request =>
    rw [run_merge] at h ⊢
    exact settings_taking_of_error h

/-- No operation brings regular settings out of shape. -/
theorem run_isRegular (h : session.settings.IsRegular) (operation : Operation) :
    (operation.run session).2.settings.IsRegular := by
  cases operation with
  | change edit =>
    rcases Settings.change_cases h edit with ⟨fault, -, hrun⟩ | ⟨_, _, edited, -, hrun, hwritten⟩
    · simpa only [run, hrun] using h
    · simpa only [run, hrun] using hwritten.regular
  | save path => exact h
  | load depth path =>
    rw [run_load]
    apply taking_isRegular h
    intro settings hsettings
    rcases hload : Settings.load depth session.disk path with fault | ⟨loaded, notices⟩
    · rw [hload] at hsettings
      cases hsettings
    · rw [hload] at hsettings
      cases hsettings
      exact Settings.isRegular_of_load hload
  | merge request =>
    obtain ⟨merged, hmerge, hregular⟩ :=
      Settings.merge_isRegular h (Settings.overrides_isFitting request)
    rw [run_merge, hmerge]
    exact hregular

end Operation

-- ---------------------------------------------------------------------------
-- Sessions
-- ---------------------------------------------------------------------------

namespace Session

/-- The session after some operations, one after the other; those that are refused do not end it. -/
def after (session : Session) (operations : List Operation) : Session :=
  operations.foldl (fun session operation => (operation.run session).2) session

theorem after_isRegular {session : Session} (h : session.settings.IsRegular)
    (operations : List Operation) : (session.after operations).settings.IsRegular := by
  induction operations generalizing session with
  | nil => exact h
  | cons operation rest ih => exact ih (operation.run_isRegular h)

/-- Whatever is done with loaded settings, they come of choices: every setting and no other is there,
with a value of its type, and every checker has a flag. So every checker can be asked whether it is on and
test files can be looked for; and an operation that is refused leaves the settings as they were. -/
theorem after_isChosen {depth : Nat} {disk : Disk} {path : String} {settings : Settings}
    {notices : List Settings.Notice}
    (hload : Settings.load depth disk path = .ok (settings, notices))
    (operations : List Operation) :
    let session := Session.after ⟨disk, settings⟩ operations
    session.settings.IsChosen ∧
    (∀ checker : Checker, checker.isEnabled (.table session.settings) =
      .ok (session.settings.isOn checker)) ∧
    (∀ disk path, ∃ files,
      Discovery.testFiles disk path (session.settings.value .exclude) = .ok files) ∧
    ∀ operation fault, (Operation.run session operation).1 = .error fault →
      (Operation.run session operation).2.settings = session.settings := by
  intro session
  have hregular : session.settings.IsRegular :=
    after_isRegular (Settings.isRegular_of_load hload) operations
  have hvalid := Settings.isValid_of_isSound hregular.sound
  refine ⟨hregular.isChosen, ?_, ?_, ?_⟩
  · intro checker
    exact Settings.isEnabled_eq hvalid checker
  · intro disk path
    obtain ⟨patterns, hpatterns⟩ := Settings.exclusions_ok hvalid
    obtain ⟨files, hfiles, -⟩ := Discovery.testFiles_ok patterns hpatterns disk path
    exact ⟨files, hfiles⟩
  · intro operation fault hfault
    exact operation.settings_of_error hfault

/-- Over a malformed file, after a checker was switched off, an unknown checker refused, the settings
saved and loaded, and a scan's exclusion taken over. -/
theorem after_isChosen_over_malformed_file :
    Settings.load 2 (Settings.Sample.disk "" .granting) Settings.Sample.path =
      .ok (Settings.defaults, [.unusable Settings.Sample.path .malformed]) ∧
    (Session.after ⟨Settings.Sample.disk "" .granting, Settings.defaults⟩
      [.change (.set "checkers.raceConditionAnalysis" "off"), .change (.set "checkers.spelling" "on"),
        .save Settings.Sample.path, .load 2 Settings.Sample.path,
        .merge ⟨".", true, false, false, false, none, ["fixtures"]⟩]).settings.IsChosen :=
  ⟨Settings.Sample.load_empty _ 2, (after_isChosen (Settings.Sample.load_empty _ 2) _).1⟩

end Session

end FlakeLint
