-- SUMMARY: What an edit on the command line leaves on the disk, however far it gets.
import FlakeLint.Proofs.Settings.Persistence

/-!
# All or nothing

Many steps of an edit can be refused: reading the arguments, finding the key, reading
the value, making the directory of the settings file, creating, filling and moving the
temporary file, printing what has been done. A run that gets as far as printing has
changed the settings file alone. Any other run has changed no file at all, and what it
has made for a while is gone, unless the system refuses even to remove it.
-/

namespace FlakeLint

namespace Settings

-- ---------------------------------------------------------------------------
-- Reporting
-- ---------------------------------------------------------------------------

theorem mapM_itemText (texts : List Utf16) : (texts.map Json.text).mapM Json.itemText = .ok texts := by
  have htext : ∀ text ∈ texts, (Json.itemText ∘ Json.text) text = .ok (id text) := fun _ _ => rfl
  rw [List.mapM_map, mapM_eq_ok_map htext, List.map_id]

/-- Whatever a setting accepts can be shown. -/
theorem exists_display {setting : Setting} {value : Json} (h : setting.accepts value) :
    ∃ text, display value = .ok text := by
  cases value with
  | null => exact ⟨_, rfl⟩
  | bool flag => cases flag <;> exact ⟨_, rfl⟩
  | text text => exact ⟨text, rfl⟩
  | number n => cases setting <;> cases h
  | table entries => cases entries <;> exact ⟨_, rfl⟩
  | list items =>
    obtain rfl := Setting.eq_exclude_of_accepts h
    obtain ⟨patterns, hpatterns⟩ := Setting.exists_patterns_of_accepts h
    cases hpatterns
    cases patterns with
    | nil => exact ⟨_, rfl⟩
    | cons first rest =>
      have htexts := mapM_itemText (first :: rest)
      refine ⟨Utf16.intercalate ", " (first :: rest), ?_⟩
      rw [List.map_cons] at htexts ⊢
      simp only [display, htexts]
      rfl

section

variable {settings : Settings} (h : settings.IsRegular)
include h

theorem exists_shownValue (key : String) : ∃ text, Surroundings.shownValue settings key = .ok text := by
  unfold Surroundings.shownValue
  cases flagOf? key with
  | some checker =>
    obtain ⟨flags, hget, haccepts, -⟩ := h.exists_flags
    simp only [hget, Option.getD_some, Json.field?, bind, Except.bind]
    cases hflag : Table.get? flags (Utf16.ofString checker) with
    | none => exact ⟨_, rfl⟩
    | some flag =>
      have hbool : flag.isBool := List.all_eq_true.1 haccepts _ (Table.mem_of_get? hflag)
      cases flag with
      | bool flag => cases flag <;> exact ⟨_, rfl⟩
      | _ => cases hbool
  | none =>
    dsimp only
    cases hvalue : settings.get? key with
    | none => exact ⟨_, rfl⟩
    | some value =>
      obtain ⟨setting, -, haccepts, -⟩ := h.accepts_of_mem (Table.mem_of_get? hvalue)
      exact exists_display haccepts

/-- Whatever an edit has been, it can be reported. -/
theorem exists_report (edit : Edit) : ∃ text, edit.report settings = .ok text := by
  cases edit with
  | set key raw =>
    obtain ⟨text, htext⟩ := exists_shownValue h key
    refine ⟨↑s!"  Set {key} = " ++ text, ?_⟩
    simp only [Edit.report, Surroundings.setReport, htext, bind, Except.bind, pure, Except.pure]
  | unset key =>
    obtain ⟨text, htext⟩ := exists_shownValue h key
    refine ⟨↑s!"  Reset {key} to default (" ++ text ++ ↑")", ?_⟩
    simp only [Edit.report, Surroundings.unsetReport, htext, bind, Except.bind, pure, Except.pure]

end

-- ---------------------------------------------------------------------------
-- Saving
-- ---------------------------------------------------------------------------

/-- A path leads to a place with the text of these settings, which stands for nothing else. -/
structure IsWrittenAt (settings : Settings) (disk : Disk) (path : String) (place : List String) :
    Prop where
  place_eq : disk.place path = .ok place
  text : ∃ text, settings.fileText = .ok text ∧
    disk.root.at? place = some (.file (.plain (Utf8.encode text.toList))) ∧
    ∀ depth, 2 ≤ depth → Json.parseWithin depth text.toList = .ok (.table settings)

theorem isWrittenAt_of_save {settings : Settings} (h : settings.IsRegular) {disk after : Disk}
    {path : String} (hsave : settings.save disk path = (after, .ok ())) :
    ∃ place, settings.IsWrittenAt after path place ∧
      Disk.KeptBut (disk.way path) [place] disk.root after.root := by
  rw [save, fileText_eq h] at hsave
  obtain ⟨place, hplace, hfile, hkept⟩ := Disk.find_of_replace hsave
  refine ⟨place, ⟨hplace, _, fileText_eq h, hfile, fun depth hdepth => ?_⟩, hkept⟩
  rw [String.toList_append, String.toList_ofList]
  exact parseWithin_write h hdepth

theorem keptBut_of_save {settings : Settings} {disk after : Disk} {path : String} {fault : Fault}
    (hsave : settings.save disk path = (after, .error fault)) :
    Disk.KeptBut (disk.way path) [] disk.root after.root ∨
      ∃ temporary, disk.Leaves path temporary after.root := by
  unfold save at hsave
  split at hsave
  · exact Disk.keptBut_of_replace hsave
  · cases hsave
    exact .inl (.refl _ _)

end Settings

-- ---------------------------------------------------------------------------
-- Running
-- ---------------------------------------------------------------------------

/-- The run ended with exit code 1, or a fault stopped it. -/
def Run.HasFailed (run : Run) : Prop :=
  (∃ output errors, run.outcome = .finished 1 output errors) ∨ ∃ fault, run.outcome = .stopped fault

/-- Apart from those at some places, the run has left every file as it was. Directories on the way of a
path may have been made. -/
structure Run.HasKept (run : Run) (before : Disk) (path : String) (places : List (List String)) :
    Prop where
  files : ∀ place ∉ places, ∀ file,
    run.disk.root.at? place = some (.file file) ↔ before.root.at? place = some (.file file)
  kept : Disk.KeptBut (before.way path) places before.root run.disk.root

theorem Run.hasKept {run : Run} {before : Disk} {path : String} {places : List (List String)}
    (h : Disk.KeptBut (before.way path) places before.root run.disk.root) :
    run.HasKept before path places :=
  ⟨fun _ hplace => h.file_iff hplace, h⟩

open Settings (Edit)

/-- How a run that is to make some settings and save them at a path can end. -/
inductive Run.IsWhole (surroundings : Surroundings) (path : String) (edit : Edit)
    (edited : Except Fault Settings) (run : Run) : Prop
  /-- It has saved the settings and no other file has changed. -/
  | done {settings : Settings} {place : List String} {output : Utf16} {errors : String}
      (hedited : edited = .ok settings) (houtcome : run.outcome = .finished 0 output errors)
      (hwritten : settings.IsWrittenAt run.disk path place)
      (hkept : run.HasKept surroundings.disk path [place])
  /-- It has done so, and then the output did not take the line that tells of it. -/
  | untold {settings : Settings} {place : List String} {line : Utf16} {fault : TextFault}
      (hedited : edited = .ok settings) (hline : edit.report settings = .ok line)
      (hrefused : surroundings.output.refusal? (surroundings.terminal.paintText .green line) =
        some fault)
      (houtcome : run.outcome = .stopped (.text fault))
      (hwritten : settings.IsWrittenAt run.disk path place)
      (hkept : run.HasKept surroundings.disk path [place])
  /-- No file has changed. Whatever was made for a while is gone. -/
  | failed (hfailed : run.HasFailed) (hkept : run.HasKept surroundings.disk path [])
  /-- No file has changed, but beside the settings file there is a new one that the system refuses to
  remove. -/
  | leftover {fault : Fault} {temporary : List String} (houtcome : run.outcome = .stopped fault)
      (hleaves : surroundings.disk.Leaves path temporary run.disk.root)
      (hkept : run.HasKept surroundings.disk path [temporary])

namespace Surroundings

variable {surroundings : Surroundings} {edit : Edit}

theorem runEdit_of_rejects {fault : EditFault} (h : edit.Rejects fault) (settings : Settings)
    (path : String) (messages : List Message) :
    surroundings.runEdit path messages (edit.apply settings) (fun edited => edit.report edited) =
      surroundings.conclude 1 [] (messages ++ [.error (refusal fault)]) := by
  have hrejected : edit.apply settings = .error (.edit fault) := by
    rw [edit.apply_eq_changed, Settings.changed_eq_error, Edit.run_of_rejects h]
  rw [hrejected]
  rfl

/-- Edited settings that were saved: the run ends in order, or it is stopped over its report. -/
theorem runEdit_of_save {edited : Settings} (h : edited.IsRegular) {path : String}
    {messages : List Message} {after : Disk}
    (hsave : edited.save surroundings.disk path = (after, .ok ())) :
    (surroundings.runEdit path messages (.ok edited) fun edited => edit.report edited).IsWhole
      surroundings path edit (.ok edited) := by
  obtain ⟨line, hreport⟩ := Settings.exists_report h edit
  obtain ⟨place, hwritten, hkept⟩ := Settings.isWrittenAt_of_save h hsave
  have hrun : surroundings.runEdit path messages (.ok edited) (fun edited => edit.report edited) =
      { surroundings with disk := after }.finish 0 [surroundings.terminal.paintText .green line]
        messages := by
    simp only [runEdit, hsave, hreport]
  cases hrefused : surroundings.output.refusal? (surroundings.terminal.paintText .green line) with
  | none =>
    have hdone : surroundings.runEdit path messages (.ok edited) (fun edited => edit.report edited) =
        { surroundings with disk := after }.conclude 0 [surroundings.terminal.paintText .green line]
          messages := by
      rw [hrun]
      apply afterPrinting_eq
      intro other hother
      rw [List.mem_singleton.1 hother]
      exact hrefused
    rw [hdone]
    exact .done rfl rfl hwritten (Run.hasKept hkept)
  | some fault =>
    have hstopped : surroundings.runEdit path messages (.ok edited)
        (fun edited => edit.report edited) = { surroundings with disk := after }.stop (.text fault) := by
      have hfirst : [surroundings.terminal.paintText .green line].findSome?
          surroundings.output.refusal? = some fault := by
        rw [List.findSome?_cons, hrefused]
      rw [hrun, finish, afterPrinting, hfirst]
    rw [hstopped]
    exact .untold rfl hreport hrefused rfl hwritten (Run.hasKept hkept)

/-- Carrying out an edit of regular settings fails at once, or it comes down to saving them. -/
theorem runEdit_isWhole {settings : Settings} (h : settings.IsRegular) (path : String)
    (messages : List Message) :
    (surroundings.runEdit path messages (edit.apply settings) fun edited => edit.report edited).IsWhole
      surroundings path edit (edit.apply settings) := by
  rcases Settings.change_cases h edit with
    ⟨fault, hrejects, -⟩ | ⟨slot, value, edited, -, hchanged, hwritten⟩
  · rw [runEdit_of_rejects hrejects]
    exact .failed (.inl ⟨_, _, rfl⟩) (Run.hasKept (.refl _ _))
  · rw [edit.apply_eq_changed, Settings.changed_eq_ok.2 hchanged]
    rcases hsave : edited.save surroundings.disk path with ⟨after, fault | done⟩
    · have hrun : surroundings.runEdit path messages (.ok edited) (fun edited => edit.report edited) =
          { surroundings with disk := after }.stop fault := by
        simp only [runEdit, hsave]
      rw [hrun]
      rcases Settings.keptBut_of_save hsave with hkept | ⟨temporary, hleaves⟩
      · exact .failed (.inr ⟨fault, rfl⟩) (Run.hasKept hkept)
      · exact .leftover rfl hleaves (Run.hasKept hleaves.kept)
    · exact runEdit_of_save hwritten.regular hsave

section

variable {arguments : List String} {invocation : Invocation} {path : String}
  (hinvocation : Invocation.ofList arguments = .ok invocation)
  (hpath : invocation.settingsPath.getD surroundings.defaultSettingsPath = path)
include hinvocation hpath

/-- Settings that cannot be loaded stop every command. -/
theorem run_eq_stop {fault : Fault}
    (hload : Settings.load surroundings.nesting surroundings.disk path = .error fault) :
    surroundings.run arguments = surroundings.stop fault := by
  unfold run
  rw [hinvocation]
  unfold runInvocation
  simp only [hpath, hload]

theorem run_isWhole (hcommand : invocation.command = edit.command) :
    (surroundings.run arguments).IsWhole surroundings path edit
      ((Settings.load surroundings.nesting surroundings.disk path).bind
        fun loaded => edit.apply loaded.1) := by
  cases hload : Settings.load surroundings.nesting surroundings.disk path with
  | error fault =>
    rw [run_eq_stop hinvocation hpath hload]
    exact .failed (.inr ⟨fault, rfl⟩) (Run.hasKept (.refl _ _))
  | ok loaded =>
    rw [run_eq_runEdit hinvocation hcommand hpath hload]
    exact runEdit_isWhole (Settings.isRegular_of_load hload) path _

end

end Surroundings

namespace Settings

/-- Settings that are written at a path are what the text there is read as. -/
theorem parseWithin_of_isWrittenAt {settings : Settings} {disk : Disk} {path : String}
    {place : List String} {text : List Char} (h : settings.IsWrittenAt disk path place)
    (hfile : disk.atPath? path = some (.file (.plain (Utf8.encode text)))) :
    Json.parseWithin 2 text = .ok (.table settings) := by
  obtain ⟨hplace, written, -, hwritten, hparse⟩ := h
  rw [Disk.atPath?, hplace] at hfile
  dsimp only at hfile
  rw [hwritten] at hfile
  have hbytes : Utf8.encode written.toList = Utf8.encode text :=
    congrArg File.bytes (Entry.file.inj (Option.some.inj hfile))
  have htext : written.toList = text := by
    rw [← Utf8.decode_encode written.toList, hbytes, Utf8.decode_encode]
  rw [← htext]
  exact hparse 2 (le_refl 2)

namespace Sample

theorem atPath?_disk (text : String) (system : System) : (disk text system).atPath? path =
    some (.file (.plain (Utf8.encode text.toList))) := by
  rw [Disk.atPath?, place_path]
  rfl

/-- A settings file with half of a pair among the exclusions. -/
def halfText : String :=
  "\x7b\n  \"exclude\": [\n    \"\\ud800\"\n  ]\n\x7d\n"

def halfEntries : List (Utf16 × Json) :=
  [(Setting.exclude.key, .list [.text ⟨[0xD800]⟩])]

def halfExcluded (texts : List Utf16) : Settings :=
  defaults.put Setting.exclude.key (.list ((⟨[0xD800]⟩ :: texts).map .text))

theorem parseWithin_halfText : Json.parseWithin 2 halfText.toList = .ok (.table halfEntries) := by
  have htext : halfText.toList = Json.write .ascii 0 (.table halfEntries) ++ ['\n'] := rfl
  rw [htext]
  exact Json.parseWithin_write .ascii 0 (by decide) (Json.isGap_of_mem_newline 0)

theorem load_halfText : load 2 (disk halfText .granting) path = .ok (halfExcluded [], []) := by
  have hreturn : '\r' ∉ halfText.toList := by decide +kernel
  rw [load_disk _ hreturn, ofText, parseWithin_halfText]
  rfl

theorem apply_halfExcluded :
    Edit.apply (halfExcluded []) (.set "exclude" "x") = .ok (halfExcluded ["x"]) := by
  have hold : Table.get? (halfExcluded []) Setting.exclude.key =
      some (.list (List.map .text [⟨[0xD800]⟩])) := Table.get?_put_self _ _ _
  have hnew : ("x" : Utf16) ∉ [(⟨[0xD800]⟩ : Utf16)] := by decide +kernel
  have happly := apply_set_exclude hold hnew
  rwa [halfExcluded, Table.put_put_self] at happly

theorem stopped_halfExcluded : ∃ after place,
    (surroundings (disk halfText .granting)).run ["--config", path, "config", "set", "exclude", "x"] =
      (surroundings after).stop (.text (.halves 0xD800 16 16)) ∧
    (halfExcluded ["x"]).IsWrittenAt after path place := by
  have hinvocation : Invocation.ofList ["--config", path, "config", "set", "exclude", "x"] =
      .ok ⟨some path, .setSetting "exclude" "x"⟩ := rfl
  have hcommand : Command.setSetting "exclude" "x" = Edit.command (.set "exclude" "x") := rfl
  have hload : load (surroundings (disk halfText .granting)).nesting (surroundings (disk halfText .granting)).disk path =
      .ok (halfExcluded [], []) := load_halfText
  obtain ⟨slot, value, -, hwritten⟩ :=
    hasWritten_of_apply (isRegular_of_load hload) apply_halfExcluded
  obtain ⟨after, hsave⟩ :
      ∃ after, (halfExcluded ["x"]).save (disk halfText .granting) path = (after, .ok ()) := by
    simpa only [save, fileText_eq hwritten.regular] using replace_disk _
  obtain ⟨place, hplace, -⟩ := isWrittenAt_of_save hwritten.regular hsave
  have hreport : Surroundings.setReport "exclude" (halfExcluded ["x"]) =
      .ok ("  Set exclude = " ++ ⟨[0xD800]⟩ ++ ", x") := by
    rfl
  have hrun := Surroundings.run_of_save hinvocation hcommand rfl hload apply_halfExcluded hsave
    hreport
  exact ⟨after, place, hrun, hplace⟩

/-- A system that neither moves nor removes a file. -/
def holding : System where
  refusal?
    | .move _ _ | .remove _ => some .denied
    | _ => none
  room := 0
  newName _ := "tmp"
  faultsOnCircles := true

/-- A project with a further file beside its settings file. -/
def heldDisk (text new : String) : Disk where
  home := "/project"
  root := .directory [("project", .directory [
    (path, .file (.plain (Utf8.encode text.toList))), ("tmp", .file (.plain (Utf8.encode new.toList)))])]
  system := holding

theorem replace_holding (text new : String) :
    (disk text holding).replace path new = (heldDisk text new, .error (.disk ⟨.denied, path⟩)) := by
  have hend : Disk.endsInPointer path = false := rfl
  have hcreate : Disk.createTemporary (disk text holding).system (disk text holding).root
      ((disk text holding).way path) = .ok ((heldDisk text "").root, ["project", "tmp"]) := by
    rw [way_path]
    rfl
  have hplace : (heldDisk text new).place path = .ok ["project", path] := by
    have hstart : (heldDisk text new).start path = ["project"] := start_path text holding
    rw [Disk.place, hstart, steps_path]
    exact Disk.follow_eq_of_at? (by decide) rfl
  have hmove : (heldDisk text new).moveOnto ["project", "tmp"] path = .error .denied := by
    rw [Disk.moveOnto, hend, if_neg Bool.false_ne_true, hplace]
    rfl
  have hfill : Disk.fill (disk text holding).system (heldDisk text "").root ["project", "tmp"]
      (Utf8.encode new.toList) = ((heldDisk text new).root, .ok ()) := rfl
  unfold Disk.replace
  rw [prepare_path]
  simp only [hcreate, hfill, bind, Except.bind]
  rw [show { disk text holding with root := (heldDisk text new).root } = heldDisk text new from rfl,
    hmove]
  rfl

theorem stopped_holding : ∃ text, (surroundings (disk "" holding)).run arguments =
    (surroundings (heldDisk "" text)).stop (.disk ⟨.denied, path⟩) := by
  have hload : load (surroundings (disk "" holding)).nesting (surroundings (disk "" holding)).disk
      path = .ok (defaults, [.unusable path .malformed]) := load_empty _ 2
  have hcommand : Command.setSetting "exclude" "démo" = Edit.command (.set "exclude" "démo") := rfl
  obtain ⟨slot, value, -, hwritten⟩ := hasWritten_of_apply defaults_isRegular apply_defaults
  obtain ⟨text, hsave⟩ : ∃ text, edited.save (surroundings (disk "" holding)).disk path =
      (heldDisk "" text, .error (.disk ⟨.denied, path⟩)) := by
    rw [save, fileText_eq hwritten.regular]
    exact ⟨_, replace_holding "" _⟩
  refine ⟨text, ?_⟩
  rw [Surroundings.run_eq_runEdit ofList_arguments hcommand rfl hload, apply_defaults]
  simp only [Surroundings.runEdit, Option.getD_some, hsave]
  rfl

end Sample

end Settings

end FlakeLint
