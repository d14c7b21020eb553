-- SUMMARY: Loading settings ends in choices unless the file holds a document beyond the reader's limits.
import FlakeLint.Proofs.Json.Limits
import FlakeLint.Proofs.Settings.Choices

/-!
# Limits of settings files

Bytes that are no text, texts that are no document, documents that are no table and
values that do not fit: none of these stops loading. A number with too many digits
does, wherever in the document it stands, and so does a nesting that is too deep for
the reader, however deep that is.
-/

namespace FlakeLint

namespace Json

/-- A reader that goes so deep reads the text, or refuses it as malformed only. -/
def IsWithinLimits (depth : Nat) (text : List Char) : Prop :=
  ∀ refusal, parseWithin depth text = .error refusal → refusal = .malformed

/-- What a refusal stops loading with, if it does. -/
def Refusal.fault? : Refusal → Option Fault
  | .malformed => none
  | .tooDeep nest => some (.nesting nest)
  | .tooLong digits => some (.number (.tooLongToRead digits))

theorem Refusal.fault?_eq_none_iff {refusal : Refusal} :
    refusal.fault? = none ↔ refusal = .malformed := by
  cases refusal <;> simp [fault?]

end Json

namespace Settings

/-- The text that a settings file holds; none if there is no file, or its bytes are no text. -/
def heldText? (disk : Disk) (path : String) : Option (List Char) :=
  if disk.isThere (Path.normalized path) then
    (disk.read (Path.normalized path)).toOption.map Prod.snd
  else none

variable {depth : Nat} {disk : Disk} {path : String} {text : List Char}

theorem load_of_heldText? (h : heldText? disk path = some text) :
    load depth disk path = ofText depth (Path.normalized path) text := by
  unfold heldText? at h
  unfold load
  split at h
  · next hthere =>
    rw [if_pos hthere]
    cases hread : disk.read (Path.normalized path) with
    | error cause =>
      rw [hread] at h
      cases h
    | ok found =>
      rw [hread] at h
      cases h
      rfl
  · cases h

theorem load_of_heldText?_eq_none (h : heldText? disk path = none) (depth : Nat) :
    ∃ notices, load depth disk path = .ok (defaults, notices) := by
  unfold heldText? at h
  unfold load
  split at h
  · next hthere =>
    rw [if_pos hthere]
    cases hread : disk.read (Path.normalized path) with
    | error cause => exact ⟨_, rfl⟩
    | ok found =>
      rw [hread] at h
      cases h
  · next hthere => exact ⟨[], if_neg hthere⟩

theorem ofText_eq_error_iff {fault : Fault} : ofText depth path text = .error fault ↔
    ∃ refusal, Json.parseWithin depth text = .error refusal ∧ refusal.fault? = some fault := by
  unfold ofText
  cases hparse : Json.parseWithin depth text with
  | ok document => cases document <;> simp
  | error refusal => cases refusal <;> simp [Json.Refusal.fault?]

theorem load_eq_error_iff {fault : Fault} : load depth disk path = .error fault ↔
    ∃ text refusal, heldText? disk path = some text ∧ Json.parseWithin depth text = .error refusal ∧
      refusal.fault? = some fault := by
  cases htext : heldText? disk path with
  | none =>
    obtain ⟨notices, hload⟩ := load_of_heldText?_eq_none htext depth
    simp [hload]
  | some text =>
    rw [load_of_heldText? htext, ofText_eq_error_iff]
    simp

theorem load_eq_ok_iff : (∃ settings notices, load depth disk path = .ok (settings, notices)) ↔
    ∀ text, heldText? disk path = some text → Json.IsWithinLimits depth text := by
  constructor
  · rintro ⟨settings, notices, hload⟩ text htext refusal hparse
    rw [← Json.Refusal.fault?_eq_none_iff, Option.eq_none_iff_forall_ne_some]
    intro fault hfault
    rw [load_eq_error_iff.2 ⟨text, refusal, htext, hparse, hfault⟩] at hload
    cases hload
  · intro hwithin
    cases hload : load depth disk path with
    | ok found => exact ⟨found.1, found.2, rfl⟩
    | error fault =>
      obtain ⟨text, refusal, htext, hparse, hfault⟩ := load_eq_error_iff.1 hload
      obtain rfl := hwithin text htext refusal hparse
      cases hfault

/-- Settings can be loaded exactly if the file, should it hold a text, holds one within the limits of
the reader; they come of choices then. What stops loading is seen in the text: more opening brackets
than may nest, or the digits of a number that is too long. -/
theorem load_isChosen_within_limits (depth : Nat) (disk : Disk) (path : String) :
    ((∃ settings notices, load depth disk path = .ok (settings, notices)) ↔
      ∀ text, heldText? disk path = some text → Json.IsWithinLimits depth text) ∧
    (∀ settings notices, load depth disk path = .ok (settings, notices) → settings.IsChosen) ∧
    ∀ fault, load depth disk path = .error fault → ∃ text, heldText? disk path = some text ∧
      ((∃ nest, fault = .nesting nest ∧ depth < text.countP Json.isBracket) ∨
        ∃ digits, fault = .number (.tooLongToRead digits.length) ∧
          Json.IsLongNumeral digits text) := by
  refine ⟨load_eq_ok_iff, fun settings notices hload => (isRegular_of_load hload).isChosen, ?_⟩
  intro fault hfault
  obtain ⟨text, refusal, htext, hparse, hrefusal⟩ := load_eq_error_iff.1 hfault
  have hdue := Json.isDue_of_parseWithin hparse
  refine ⟨text, htext, ?_⟩
  cases refusal with
  | malformed => cases hrefusal
  | tooDeep nest =>
    cases hrefusal
    exact .inl ⟨nest, rfl, hdue⟩
  | tooLong n =>
    cases hrefusal
    obtain ⟨digits, hdigits, rfl⟩ := hdue
    exact .inr ⟨digits, rfl, hdigits⟩

namespace Sample

/-- A disk with one settings file. -/
def settingsDisk (bytes : List UInt8) : Disk where
  home := "/project"
  root := .directory [("project", .directory [("settings.json", .file (.plain bytes))])]

end Sample

theorem heldText?_settingsDisk {text : List Char} (h : '\r' ∉ text) :
    heldText? (Sample.settingsDisk (Utf8.encode text)) "settings.json" = some text := by
  have hsteps : (Sample.settingsDisk (Utf8.encode text)).start "settings.json" ++
      Path.steps "settings.json" = ["project", "settings.json"] := by
    have hrelative : Path.isAbsolute "settings.json" = false := rfl
    have hproject : Path.steps "/project" = ["project"] := rfl
    have hname : Path.steps "settings.json" = ["settings.json"] := rfl
    rw [Disk.start, hrelative, if_neg Bool.false_ne_true, hname]
    exact congrArg (· ++ ["settings.json"]) hproject
  have hplace : (Sample.settingsDisk (Utf8.encode text)).place (Path.normalized "settings.json") =
      .ok ["project", "settings.json"] := by
    rw [Disk.place_normalized, Disk.place, hsteps]
    exact Disk.follow_eq_of_at? (by decide) rfl
  have hfile : (Sample.settingsDisk (Utf8.encode text)).file (Path.normalized "settings.json") =
      .ok (.plain (Utf8.encode text)) := by
    rw [Disk.file, hplace]
    rfl
  have hthere : (Sample.settingsDisk (Utf8.encode text)).isThere (Path.normalized "settings.json") := by
    rw [Disk.isThere, Option.isSome_iff_exists]
    exact ⟨_, Disk.find?_eq_some_iff.2 ⟨_, hplace, rfl, rfl⟩⟩
  have htext : (File.plain (Utf8.encode text)).text = .ok text := File.text_encode h rfl
  rw [heldText?, if_pos hthere, Disk.read, hfile]
  simp only [htext, bind, Except.bind, pure, Except.pure, Except.toOption, Option.map_some]

/-- A numeral that is too long cannot be loaded, nor can more brackets than the reader goes into; bytes
that are no text are no obstacle. -/
theorem load_isChosen_or_stopped :
    (∀ depth settings notices,
      load depth (Sample.settingsDisk (Utf8.encode (List.replicate 4301 '1'))) "settings.json" ≠
        .ok (settings, notices)) ∧
    (∀ depth settings notices,
      load depth (Sample.settingsDisk (Utf8.encode (List.replicate (depth + 1) '[')))
        "settings.json" ≠ .ok (settings, notices)) ∧
    ∀ depth, ∃ settings notices, load depth (Sample.settingsDisk [0xFF]) "settings.json" =
      .ok (settings, notices) ∧ settings.IsChosen := by
  have hnumeral : ∀ depth,
      Json.parseWithin depth (List.replicate 4301 '1') = .error (.tooLong 4301) := by
    intro depth
    have hdigits : ∀ c ∈ List.replicate 4300 '1', c.isDigit := by
      intro c hc
      rw [List.eq_of_mem_replicate hc]
      rfl
    have hzero : '1' ≠ '0' := by decide
    have hparse := Json.parseWithin_numeral depth rfl hzero hdigits
      (by rw [List.length_replicate]; decide)
    rwa [List.length_replicate] at hparse
  have hreturn : ∀ n c, c ≠ '\r' → '\r' ∉ List.replicate n c :=
    fun n c hc hmem => hc (List.eq_of_mem_replicate hmem).symm
  refine ⟨?_, ?_, ?_⟩
  · intro depth settings notices hload
    have hwithin := (load_isChosen_within_limits depth _ _).1.1 ⟨settings, notices, hload⟩ _
      (heldText?_settingsDisk (hreturn 4301 '1' (by decide)))
    cases hwithin _ (hnumeral depth)
  · intro depth settings notices hload
    have hwithin := (load_isChosen_within_limits depth _ _).1.1 ⟨settings, notices, hload⟩ _
      (heldText?_settingsDisk (hreturn (depth + 1) '[' (by decide)))
    cases hwithin _ (Json.parseWithin_replicate_bracket (Nat.lt_succ_self depth))
  · intro depth
    have hnone : heldText? (Sample.settingsDisk [0xFF]) "settings.json" = none := rfl
    obtain ⟨settings, notices, hload⟩ := (load_isChosen_within_limits depth _ _).1.2
      (fun text htext => by rw [hnone] at htext; cases htext)
    exact ⟨settings, notices, hload,
      (load_isChosen_within_limits depth _ _).2.1 settings notices hload⟩

end Settings

end FlakeLint
