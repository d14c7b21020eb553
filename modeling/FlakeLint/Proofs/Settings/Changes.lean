-- SUMMARY: Changes of settings in place: what their steps do, and that a refused change leaves no trace.
import FlakeLint.Proofs.Traversal
import FlakeLint.Settings.Edit

/-!
# Changes in place

A change of settings works on them step by step, so a step that is refused could
leave behind what the steps before it have done. No change that is offered does:
whatever is looked up is checked first, and an entry that a change adds in order to
go on is never what it is refused for.
-/

namespace FlakeLint.Settings

namespace Change

variable {α β : Type} {key : Utf16} {value : Json}

-- ---------------------------------------------------------------------------
-- Running
-- ---------------------------------------------------------------------------

@[simp] theorem run_lift (result : Except Fault α) (settings : Settings) :
    Change.run (liftM result) settings = (result, settings) := rfl

@[simp] theorem run_get (settings : Settings) :
    Change.run get settings = (.ok settings, settings) := rfl

theorem run_bind (change : Change α) (next : α → Change β) (settings : Settings) :
    (change >>= next).run settings = match change.run settings with
      | (.ok value, settings) => (next value).run settings
      | (.error fault, settings) => (.error fault, settings) := by
  simp only [run, ExceptT.run_bind, StateT.run_bind]
  generalize (ExceptT.run change).run settings = result
  obtain ⟨fault | value, after⟩ := result <;> rfl

theorem run_setDefault (key : Utf16) (value : Json) (settings : Settings) :
    (setDefault key value).run settings = match settings.get? key with
      | some found => (.ok found, settings)
      | none => (.ok value, settings.put key value) := by
  unfold setDefault
  rw [run_bind, run_get]
  dsimp only
  cases Table.get? settings key <;> rfl

/-- What is there already is not changed by looking it up. -/
theorem run_setDefault_bind {settings : Settings} {found : Json} (h : settings.get? key = some found)
    (next : Json → Change α) :
    (setDefault key value >>= next).run settings = (next found).run settings := by
  rw [run_bind, run_setDefault, h]

theorem run_lift_bind (result : Except Fault α) (next : α → Change β) (settings : Settings) :
    (liftM result >>= next).run settings = match result with
      | .ok value => (next value).run settings
      | .error fault => (.error fault, settings) := by
  rw [run_bind, run_lift]
  cases result <;> rfl

-- ---------------------------------------------------------------------------
-- Refusals
-- ---------------------------------------------------------------------------

/-- Wherever the change is refused, the settings are as they were. -/
def IsAtomic (change : Change α) : Prop :=
  ∀ settings fault after, change.run settings = (.error fault, after) → after = settings

theorem pure_isAtomic (value : α) : IsAtomic (pure value) := by
  intro settings fault after h
  cases h

theorem throw_isAtomic (fault : Fault) : IsAtomic (throw fault : Change α) := by
  intro settings fault after h
  cases h
  rfl

theorem write_isAtomic (key : Utf16) (value : Json) : IsAtomic (write key value) := by
  intro settings fault after h
  cases h

/-- A check comes before everything else. -/
theorem IsAtomic.lift_bind {result : Except Fault α} {next : α → Change β}
    (h : ∀ value, (next value).IsAtomic) : IsAtomic (liftM result >>= next) := by
  intro settings fault after hrun
  rw [run_lift_bind] at hrun
  cases result with
  | error fault =>
    cases hrun
    rfl
  | ok value => exact h value settings fault after hrun

/-- An entry may be added for want of one if what follows is not refused then. -/
theorem IsAtomic.setDefault_bind {next : Json → Change α} (h : ∀ found, (next found).IsAtomic)
    (hvalue : ∀ settings fault after, (next value).run settings ≠ (.error fault, after)) :
    IsAtomic (setDefault key value >>= next) := by
  intro settings fault after hrun
  cases hfound : Table.get? settings key with
  | some found =>
    rw [run_setDefault_bind hfound] at hrun
    exact h found settings fault after hrun
  | none =>
    rw [run_bind, run_setDefault, hfound] at hrun
    exact absurd hrun (hvalue _ fault after)

theorem setFlag_isAtomic (key checker raw : String) : (setFlag key checker raw).IsAtomic := by
  unfold setFlag
  dsimp only
  split
  · exact throw_isAtomic _
  · refine .lift_bind fun flag => .setDefault_bind (fun found => ?_) fun settings fault after h => ?_
    · cases found with
      | table flags => exact write_isAtomic _ _
      | _ => exact throw_isAtomic _
    · cases h

theorem append_isAtomic (key raw : String) : (append key raw).IsAtomic := by
  refine .setDefault_bind (fun found => ?_) fun settings fault after h => ?_
  · cases found with
    | list items =>
      dsimp only
      split
      · exact pure_isAtomic _
      · exact write_isAtomic _ _
    | text | table =>
      dsimp only
      split
      · exact pure_isAtomic _
      · exact throw_isAtomic _
    | null | bool | number => exact throw_isAtomic _
  · cases h

/-- Setting a value is refused only while nothing has been changed, whatever the settings are. -/
theorem set_isAtomic (key raw : String) : (set key raw).IsAtomic := by
  unfold set
  split
  · exact setFlag_isAtomic _ _ _
  · split
    · exact throw_isAtomic _
    · exact .lift_bind fun flag => write_isAtomic _ _
    · exact .lift_bind fun flag => write_isAtomic _ _
    · exact .lift_bind fun flag => write_isAtomic _ _
    · split
      · exact write_isAtomic _ _
      · exact throw_isAtomic _
    · split
      · exact throw_isAtomic _
      · exact write_isAtomic _ _
    · exact append_isAtomic _ _
    · exact throw_isAtomic _

theorem unset_isAtomic (key : String) : (unset key).IsAtomic := by
  unfold unset
  split
  · exact throw_isAtomic _
  · exact write_isAtomic _ _

end Change

-- ---------------------------------------------------------------------------
-- Changed settings
-- ---------------------------------------------------------------------------

variable {settings edited : Settings} {change : Change Unit} {fault : Fault}

theorem changed_eq_ok : settings.changed change = .ok edited ↔
    change.run settings = (.ok (), edited) := by
  unfold changed
  split
  · next hrun => simp [hrun]
  · next hrun => simp [hrun]

theorem changed_eq_error : settings.changed change = .error fault ↔
    (change.run settings).1 = .error fault := by
  unfold changed
  split
  · next hrun => simp [hrun]
  · next hrun => simp [hrun]

end FlakeLint.Settings
