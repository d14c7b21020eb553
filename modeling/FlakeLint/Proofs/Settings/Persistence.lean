-- SUMMARY: Edits of settings on the command line persist, and change nothing else.
import FlakeLint.CommandLine.Run
import FlakeLint.Proofs.Settings.Edits

/-!
# Edits that persist

A run that carries an edit out saves the edited settings, so the next load gives them
back. A sequence of such runs amounts to the edits in memory: each of them writes its
value to its slot, and nothing else changes.
-/

namespace FlakeLint

namespace Settings

namespace Edit

def command : Edit → Command
  | .set key raw => .setSetting key raw
  | .unset key => .unsetSetting key

/-- What a run says of the edit. -/
def report (settings : Settings) : Edit → Except Fault Utf16
  | .set key _ => Surroundings.setReport key settings
  | .unset key => Surroundings.unsetReport key settings

end Edit

/-- All edits in memory, one after the other. -/
def applyAll (settings : Settings) (edits : List Edit) : Except Fault Settings :=
  edits.foldlM Edit.apply settings

/-- The settings at the end of some edits: each edit finds the settings that the ones before it have
left, has its value in its slot afterwards, and leaves everything else as it was. -/
inductive EditsTo : Settings → List Edit → Settings → Prop
  | none (settings : Settings) : EditsTo settings [] settings
  | next {settings middle edited : Settings} {edit : Edit} {edits : List Edit} {slot : Slot}
      {value : Json} (hwrites : edit.Writes settings slot value)
      (hentry : slot.value? middle = some value) (hagree : AgreeApartFrom slot settings middle)
      (rest : EditsTo middle edits edited) : EditsTo settings (edit :: edits) edited

end Settings

-- ---------------------------------------------------------------------------
-- Runs that carry out an edit
-- ---------------------------------------------------------------------------

open Settings (Edit)

namespace Surroundings

/-- A command line asks for an edit of the settings file at a path; its run ends with exit code 0 and
leaves the disk `after`. -/
def CarriesOut (surroundings : Surroundings) (path : String) (edit : Edit) (after : Disk) : Prop :=
  ∃ arguments invocation output errors, Invocation.ofList arguments = .ok invocation ∧
    invocation.command = edit.command ∧
    invocation.settingsPath.getD surroundings.defaultSettingsPath = path ∧
    (surroundings.run arguments).outcome = .finished 0 output errors ∧
    (surroundings.run arguments).disk = after

variable {surroundings : Surroundings} {path : String}

theorem save_of_runEdit {messages : List Message} {edited : Except Fault Settings}
    {report : Settings → Except Fault Utf16} {output : Utf16} {errors : String}
    (h : (surroundings.runEdit path messages edited report).outcome = .finished 0 output errors) :
    ∃ settings, edited = .ok settings ∧ settings.save surroundings.disk path =
      ((surroundings.runEdit path messages edited report).disk, .ok ()) := by
  unfold runEdit at h ⊢
  split at h
  · cases h
  · cases h
  · next settings =>
    refine ⟨settings, rfl, ?_⟩
    generalize settings.save surroundings.disk path = result at h ⊢
    obtain ⟨disk, saved⟩ := result
    cases saved with
    | error fault => cases h
    | ok done =>
      dsimp only at h ⊢
      split at h
      · cases h
      · cases h
      · unfold finish afterPrinting
        split
        · rfl
        · rfl

section

variable {arguments : List String} {invocation : Invocation} {edit : Edit} {settings : Settings}
  {notices : List Settings.Notice}

/-- A command line that asks for an edit runs it on the settings that it loads. -/
theorem run_eq_runEdit (hinvocation : Invocation.ofList arguments = .ok invocation)
    (hcommand : invocation.command = edit.command)
    (hpath : invocation.settingsPath.getD surroundings.defaultSettingsPath = path)
    (hload : Settings.load surroundings.nesting surroundings.disk path = .ok (settings, notices)) :
    surroundings.run arguments = surroundings.runEdit path
      (notices.flatMap Settings.Notice.messages) (edit.apply settings) fun edited => edit.report edited := by
  unfold run
  rw [hinvocation]
  unfold runInvocation
  simp only [hpath, hload, hcommand]
  cases edit <;> rfl

/-- A run that carries an edit out saves the edited settings. -/
theorem save_of_carriesOut {after : Disk}
    (hload : Settings.load surroundings.nesting surroundings.disk path = .ok (settings, notices))
    (hrun : surroundings.CarriesOut path edit after) :
    ∃ edited, edit.apply settings = .ok edited ∧
      edited.save surroundings.disk path = (after, .ok ()) := by
  obtain ⟨arguments, invocation, output, errors, hinvocation, hcommand, hpath, hexit, hafter⟩ := hrun
  rw [run_eq_runEdit hinvocation hcommand hpath hload] at hexit hafter
  rw [← hafter]
  exact save_of_runEdit hexit

/-- Lines that the output takes do not stop a run. -/
theorem afterPrinting_eq {lines : List Utf16}
    (h : ∀ line ∈ lines, surroundings.output.refusal? line = none) (run : Run) :
    surroundings.afterPrinting lines run = run := by
  have hnone : lines.findSome? surroundings.output.refusal? = none :=
    List.findSome?_eq_none_iff.2 h
  rw [afterPrinting, hnone]

section

variable {edited : Settings} {after : Disk} {text : Utf16}
  (hinvocation : Invocation.ofList arguments = .ok invocation)
  (hcommand : invocation.command = edit.command)
  (hpath : invocation.settingsPath.getD surroundings.defaultSettingsPath = path)
  (hload : Settings.load surroundings.nesting surroundings.disk path = .ok (settings, notices))
  (happly : edit.apply settings = .ok edited)
  (hsave : edited.save surroundings.disk path = (after, .ok ()))
  (hreport : edit.report edited = .ok text)
include hinvocation hcommand hpath hload happly hsave hreport

/-- After an edit has been saved, what is left to do is to print its report. -/
theorem run_of_save : surroundings.run arguments = { surroundings with disk := after }.finish 0
    [surroundings.terminal.paintText .green text] (notices.flatMap Settings.Notice.messages) := by
  rw [run_eq_runEdit hinvocation hcommand hpath hload]
  simp only [runEdit, happly, hsave, hreport]

variable (htaken : surroundings.output.refusal? (surroundings.terminal.paintText .green text) = none)
include htaken

/-- If the output takes the report, the run ends in order. -/
theorem run_of_save_of_taken : surroundings.run arguments =
    { surroundings with disk := after }.conclude 0 [surroundings.terminal.paintText .green text]
      (notices.flatMap Settings.Notice.messages) := by
  rw [run_of_save hinvocation hcommand hpath hload happly hsave hreport]
  apply afterPrinting_eq
  intro line hline
  rw [List.mem_singleton.1 hline]
  exact htaken

end

end

end Surroundings

namespace Settings

/-- Runs carry out edits of the settings file at a path one after the other, each on the disk that the
run before it has left. All of them read documents that nest so deep. -/
inductive Edited (depth : Nat) (path : String) : Disk → List Edit → Disk → Prop
  | none (disk : Disk) : Edited depth path disk [] disk
  | next {surroundings : Surroundings} {edit : Edit} {edits : List Edit} {middle after : Disk}
      (hdepth : surroundings.nesting = depth) (run : surroundings.CarriesOut path edit middle)
      (rest : Edited depth path middle edits after) :
      Edited depth path surroundings.disk (edit :: edits) after

/-- Whatever a settings file held when it was loaded: after edits that were carried out, loading it
gives what the edits make of the settings in memory, without a notice. Each edit has written what it is
to write, and nothing else has changed. -/
theorem load_after_edits {depth : Nat} (hdepth : 2 ≤ depth) {disk after : Disk} {path : String}
    {edits : List Edit} {settings : Settings} {notices : List Notice}
    (hload : load depth disk path = .ok (settings, notices))
    (hedits : Edited depth path disk edits after) :
    ∃ edited, settings.applyAll edits = .ok edited ∧ EditsTo settings edits edited ∧
      load depth after path = .ok (edited, if edits = [] then notices else []) := by
  induction hedits generalizing settings notices with
  | none disk => exact ⟨settings, rfl, .none settings, hload⟩
  | @next surroundings edit edits middle after hnesting run rest ih =>
    obtain ⟨found, happly, hsave⟩ := Surroundings.save_of_carriesOut (hnesting ▸ hload) run
    obtain ⟨slot, value, hwrites, hwritten⟩ := hasWritten_of_apply (isRegular_of_load hload) happly
    obtain ⟨edited, hall, hrest, hafter⟩ := ih (load_of_save hwritten.regular hdepth hsave)
    refine ⟨edited, ?_, .next hwrites hwritten.entry hwritten.agree hrest, ?_⟩
    · simpa [applyAll, happly, bind, Except.bind] using hall
    · simpa using hafter

-- ---------------------------------------------------------------------------
-- An edit of an empty settings file
-- ---------------------------------------------------------------------------

namespace Sample

def path : String := "s.json"

/-- A project with a settings file that holds a text. -/
def disk (text : String) (system : System) : Disk where
  home := "/project"
  root := .directory [("project", .directory [(path, .file (.plain (Utf8.encode text.toList)))])]
  system

def surroundings (disk : Disk) : Surroundings where
  disk
  terminal := ⟨false, true⟩
  output := .encoding
  nesting := 2
  showsLog := false
  canParse := true
  grammars := []
  imaging := none

def arguments : List String := ["--config", path, "config", "set", "exclude", "démo"]

def edited : Settings := Table.put defaults Setting.exclude.key (.list [.text "démo"])

section

variable (text : String) (system : System)

theorem start_path : (disk text system).start path = ["project"] := by
  have hrelative : Path.isAbsolute path = false := rfl
  have hhome : Path.steps "/project" = ["project"] := rfl
  rw [Disk.start, hrelative, if_neg Bool.false_ne_true]
  exact hhome

theorem steps_path : Path.steps path = [path] := rfl

theorem place_path : (disk text system).place path = .ok ["project", path] := by
  rw [Disk.place, start_path, steps_path]
  exact Disk.follow_eq_of_at? (by decide) rfl

theorem way_path : (disk text system).way path = ["project"] := by
  rw [Disk.way, start_path, Disk.stepsAbove, steps_path]
  rfl

theorem prepare_path : (disk text system).prepare path = (disk text system, .ok ()) := by
  rw [Disk.prepare, start_path, Disk.stepsAbove, steps_path, List.dropLast_singleton,
    Disk.makeDirectories]
  rfl

variable {text}

/-- The text of the settings file is what settings are loaded from. -/
theorem load_disk (h : '\r' ∉ text.toList) (depth : Nat) :
    load depth (disk text system) path = ofText depth path text.toList := by
  have hnormalized : Path.normalized path = path := rfl
  have hthere : (disk text system).isThere path := by
    rw [Disk.isThere, Option.isSome_iff_exists]
    exact ⟨_, Disk.find?_eq_some_iff.2 ⟨_, place_path text system, rfl, rfl⟩⟩
  have hfile : (disk text system).file path = .ok (.plain (Utf8.encode text.toList)) := by
    rw [Disk.file, place_path]
    rfl
  have htext : (File.plain (Utf8.encode text.toList)).text = .ok text.toList :=
    File.text_encode h rfl
  have hread : (disk text system).read path =
      .ok (.plain (Utf8.encode text.toList), text.toList) := by
    rw [Disk.read, hfile]
    simp only [htext, bind, Except.bind, pure, Except.pure]
  simp only [load, hnormalized, hthere, if_true, hread]

theorem load_empty (depth : Nat) :
    load depth (disk "" system) path = .ok (defaults, [.unusable path .malformed]) :=
  load_disk system List.not_mem_nil depth

theorem replace_disk (new : String) : ∃ after, (disk text .granting).replace path new = (after, .ok ()) := by
  have hend : Disk.endsInPointer path = false := rfl
  have habove : Disk.follow (disk text .granting).root [] ((disk text .granting).way path) = .ok ["project"] := by
    rw [way_path]
    rfl
  exact ⟨_, Disk.replace_eq_ok new (prepare_path text _) System.granting_grants hend habove rfl
    (place_path text _) fun inner => by simp [disk, path, Table.get?_cons]⟩

end

theorem apply_defaults : Edit.apply defaults (.set "exclude" "démo") = .ok edited := by
  have hold : defaults.get? Setting.exclude.key = some (.list (List.map .text [])) := rfl
  exact apply_set_exclude hold List.not_mem_nil

theorem save_edited : ∃ after, edited.save (disk "" .granting) path = (after, .ok ()) := by
  obtain ⟨slot, value, -, hwritten⟩ := hasWritten_of_apply defaults_isRegular apply_defaults
  simpa only [save, fileText_eq hwritten.regular] using replace_disk _

theorem ofList_arguments : Invocation.ofList arguments = .ok ⟨some path, .setSetting "exclude" "démo"⟩ :=
  rfl

section

variable {after : Disk} (hsave : edited.save (disk "" .granting) path = (after, .ok ()))
include hsave

theorem run_arguments : (surroundings (disk "" .granting)).run arguments = (surroundings after).conclude 0
    ["  Set exclude = démo"] (Notice.messages (.unusable path .malformed)) := by
  have hreport : Surroundings.setReport "exclude" edited = .ok "  Set exclude = démo" := rfl
  have htaken : (surroundings (disk "" .granting)).output.refusal?
      ((surroundings (disk "" .granting)).terminal.paintText .green "  Set exclude = démo") = none :=
    Utf16.halves?_eq_none_iff.2 ⟨_, rfl⟩
  have hcommand : Command.setSetting "exclude" "démo" = Edit.command (.set "exclude" "démo") := rfl
  have hload : load (surroundings (disk "" .granting)).nesting (surroundings (disk "" .granting)).disk path =
      .ok (defaults, [.unusable path .malformed]) := load_empty _ 2
  exact Surroundings.run_of_save_of_taken ofList_arguments hcommand rfl hload apply_defaults hsave
    hreport htaken

theorem carriesOut_set : (surroundings (disk "" .granting)).CarriesOut path (.set "exclude" "démo") after := by
  have hrun := run_arguments hsave
  exact ⟨arguments, _, _, _, ofList_arguments, rfl, rfl, congrArg Run.outcome hrun,
    congrArg Run.disk hrun⟩

end

end Sample

/-- Over a malformed file, a new exclusion is all that the next load finds besides the defaults. -/
theorem load_after_added_exclusion : ∃ after,
    (Sample.surroundings (Sample.disk "" .granting)).CarriesOut Sample.path (.set "exclude" "démo") after ∧
    load 2 after Sample.path =
      .ok (Table.put defaults Setting.exclude.key (.list [.text "démo"]), []) := by
  obtain ⟨after, hsave⟩ := Sample.save_edited
  have hrun := Sample.carriesOut_set hsave
  obtain ⟨edited, hedited, -, hload⟩ :=
    load_after_edits (le_refl 2) (Sample.load_empty _ 2) (Edited.next rfl hrun (.none after))
  rw [applyAll, List.foldlM_cons, Sample.apply_defaults] at hedited
  cases hedited
  exact ⟨after, hrun, hload⟩

end Settings

end FlakeLint
