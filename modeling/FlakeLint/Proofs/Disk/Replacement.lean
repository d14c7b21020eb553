-- SUMMARY: A file that is replaced is found afterwards, with the text that was written.
import FlakeLint.Proofs.Disk.Temporary

/-!
# Replaced files

When replacing a file succeeds, its path leads to a file with the new text, also
when the path is written in another way. When it is refused, no file has changed.
Missing directories have been made in both cases as far as possible, and nothing
else on the disk is touched: the temporary file is gone.
-/

namespace FlakeLint.Disk

variable {disk after : Disk} {path : String}

-- ---------------------------------------------------------------------------
-- Paths in other words
-- ---------------------------------------------------------------------------

theorem place_normalized (disk : Disk) (path : String) :
    disk.place (Path.normalized path) = disk.place path := by
  unfold place start
  rw [Path.isAbsolute_normalized, Path.steps_normalized]

/-- A path that does not end in a pointer ends in its name, and not upwards. -/
theorem steps_eq_concat (hend : endsInPointer path = false) :
    Path.steps path = stepsAbove path ++ [Path.name path] ∧ Path.name path ≠ ".." := by
  simp only [endsInPointer, Bool.or_eq_false_iff, decide_eq_false_iff_not] at hend
  refine ⟨?_, hend.2⟩
  rcases List.eq_nil_or_concat' (Path.steps path) with hnil | ⟨above, last, hsteps⟩
  · exact absurd (by rw [Path.name, hnil]; rfl) hend.1
  · simp [stepsAbove, Path.name, hsteps]

theorem follow_concat {root : Entry} {place steps above : List String} {last : String}
    {entries : List (String × Entry)} (h : follow root place steps = .ok above)
    (hdirectory : root.at? above = some (.directory entries)) (hlast : last ≠ "..") :
    follow root place (steps ++ [last]) = .ok (above ++ [last]) := by
  rw [follow_append, h]
  simp [Except.bind, follow, hdirectory, hlast]

/-- Where the directory of a path is, there the path leads. -/
theorem place_eq_of_follow {above : List String} {entries : List (String × Entry)}
    (hend : endsInPointer path = false) (habove : follow disk.root [] (disk.way path) = .ok above)
    (hdirectory : disk.root.at? above = some (.directory entries)) :
    disk.place path = .ok (above ++ [Path.name path]) := by
  obtain ⟨hsteps, hlast⟩ := steps_eq_concat hend
  unfold Disk.place
  rw [hsteps, ← List.append_assoc]
  exact follow_concat habove hdirectory hlast

-- ---------------------------------------------------------------------------
-- Replacing
-- ---------------------------------------------------------------------------

/-- A temporary file changes nothing about where a path leads. -/
theorem place_put_of_isFree {above temporary : List String} {file : File}
    {entries : List (String × Entry)} (hend : endsInPointer path = false)
    (habove : follow disk.root [] (disk.way path) = .ok above)
    (hdirectory : disk.root.at? above = some (.directory entries))
    (hfree : disk.root.IsFree temporary) :
    { disk with root := (Entry.file file).put disk.root temporary }.place path = disk.place path := by
  have hkept := putFile_keptBut_of_isFree hfree file
  obtain ⟨inner, hinner⟩ := hkept.exists_directory hdirectory
  rw [place_eq_of_follow hend habove hdirectory]
  exact place_eq_of_follow hend (hkept.follow_eq habove) hinner

/-- What moving a file leaves on the disk. -/
theorem moveOnto_eq_ok {source : List String} (h : disk.moveOnto source path = .ok after) :
    ∃ target entry, endsInPointer path = false ∧ disk.place path = .ok target ∧
      (∀ inner, disk.root.at? target ≠ some (.directory inner)) ∧
      disk.root.at? source = some entry ∧
      after = { disk with root := entry.put (disk.root.remove source) target } := by
  unfold moveOnto at h
  split at h
  · cases h
  · next hend =>
    obtain ⟨target, htarget, h⟩ := exists_eq_ok_of_bind h
    split at h
    · cases h
    · cases h
    · next entry hentry hfree =>
      obtain ⟨_, -, h⟩ := exists_eq_ok_of_bind h
      cases h
      exact ⟨target, entry, by simpa using hend, htarget, hfree, hentry, rfl⟩

/-- The disk with a file at a place, new or over the one that is there. -/
def withText (disk : Disk) (place : List String) (text : String) : Disk :=
  { disk with root := (Entry.file (.plain (Utf8.encode text.toList))).put disk.root place }

/-- A temporary file that is moved onto a path leaves the disk with its text there. -/
theorem withText_of_moveOnto {above temporary : List String} {text : String}
    {entries : List (String × Entry)} (habove : follow disk.root [] (disk.way path) = .ok above)
    (hdirectory : disk.root.at? above = some (.directory entries))
    (hfree : disk.root.IsFree temporary)
    (h : (disk.withText temporary text).moveOnto temporary path = .ok after) :
    ∃ place, endsInPointer path = false ∧ disk.place path = .ok place ∧
      (∀ inner, disk.root.at? place ≠ some (.directory inner)) ∧ after = disk.withText place text := by
  obtain ⟨place, entry, hend, hplace, hno, hentry, rfl⟩ := moveOnto_eq_ok h
  unfold withText at hplace hno hentry ⊢
  rw [place_put_of_isFree hend habove hdirectory hfree] at hplace
  dsimp only at hno hentry ⊢
  obtain rfl : _ = entry := Option.some_inj.1 ((Entry.at?_put_self hfree.canTake).symm.trans hentry)
  refine ⟨place, hend, hplace, fun inner hinner => ?_, by rw [Entry.remove_put hfree]⟩
  obtain ⟨kept, hkept⟩ := (putFile_keptBut_of_isFree hfree _).exists_directory hinner
  exact hno kept hkept

/-- Where everything is granted, moving a temporary file leaves its text where a path leads. -/
theorem moveOnto_withText {above temporary place : List String} (text : String)
    {entries : List (String × Entry)} (hgrants : disk.system.Grants) (hend : endsInPointer path = false)
    (habove : follow disk.root [] (disk.way path) = .ok above)
    (hdirectory : disk.root.at? above = some (.directory entries))
    (hfree : disk.root.IsFree temporary) (hplace : disk.place path = .ok place)
    (hno : ∀ inner, disk.root.at? place ≠ some (.directory inner)) :
    (disk.withText temporary text).moveOnto temporary path = .ok (disk.withText place text) := by
  have hkept : (disk.withText temporary text).place path = .ok place :=
    (place_put_of_isFree hend habove hdirectory hfree).trans hplace
  have hfile : (disk.withText temporary text).root.at? temporary =
      some (.file (.plain (Utf8.encode text.toList))) := Entry.at?_put_self hfree.canTake
  have hno' : ∀ inner, (disk.withText temporary text).root.at? place ≠ some (.directory inner) := by
    rw [← Entry.held_ne_directory] at hno ⊢
    by_cases hsame : place = temporary
    · rw [hsame, Entry.held_eq_file.2 hfile]
      simp
    · have hnone : disk.root.held temporary ≠ some none := by
        simp [Entry.held_eq_none.2 hfree.at?_eq_none]
      exact (Entry.held_put_of_ne (Entry.held_file_cons _) hnone hsame).trans_ne hno
  have hremoved : (disk.withText temporary text).root.remove temporary = disk.root :=
    Entry.remove_put hfree _
  have hgranted : (disk.withText temporary text).system.check (.move temporary place) = .ok () :=
    hgrants.check _
  unfold moveOnto
  -- That no directory is replaced, `hno'`, picks the last case.
  simp only [hend, Bool.false_eq_true, if_false, hkept, hfile, hremoved, hgranted, bind, Except.bind]
  rfl

/-- The disk with a temporary file beside a path that could not be removed. -/
def HasLeftover (disk : Disk) (path : String) (temporary : List String) (after : Disk) : Prop :=
  disk.system.refusal? (.remove temporary) ≠ none ∧ disk.root.IsFree temporary ∧
    (∃ above name, follow disk.root [] (disk.way path) = .ok above ∧ temporary = above ++ [name]) ∧
    ∃ file, after = { disk with root := (Entry.file file).put disk.root temporary }

theorem discard_cases {above : List String} {name : String} (file : File)
    (habove : follow disk.root [] (disk.way path) = .ok above)
    (hfree : disk.root.IsFree (above ++ [name])) :
    let after := discard disk.system ((Entry.file file).put disk.root (above ++ [name])) (above ++ [name])
    { disk with root := after } = disk ∨
      disk.HasLeftover path (above ++ [name]) { disk with root := after } := by
  dsimp only
  rcases discard_put_cases disk.system hfree (.file file) with hgone | ⟨hrefused, hstays⟩
  · exact .inl (by rw [hgone])
  · exact .inr ⟨hrefused, hfree, ⟨above, name, habove, rfl⟩, file, by rw [hstays]⟩

/-- Once its directory has been made, replacing a file puts the text where the path leads, or nothing
has happened, or a temporary file is left that could not be removed. -/
theorem replace_cases (disk : Disk) (path text : String) :
    (∃ fault, disk.replace path text = ((disk.prepare path).1, .error fault)) ∨
    (∃ prepared temporary left fault, disk.prepare path = (prepared, .ok ()) ∧
      prepared.HasLeftover path temporary left ∧ disk.replace path text = (left, .error fault)) ∨
    ∃ prepared place, disk.prepare path = (prepared, .ok ()) ∧ endsInPointer path = false ∧
      prepared.place path = .ok place ∧
      (∀ inner, prepared.root.at? place ≠ some (.directory inner)) ∧
      disk.replace path text = (prepared.withText place text, .ok ()) := by
  unfold replace
  generalize disk.prepare path = preparing
  obtain ⟨prepared, fault | done⟩ := preparing
  · exact .inl ⟨fault, rfl⟩
  dsimp only
  split
  · next cause _ => exact .inl ⟨_, rfl⟩
  · next created temporary hcreate =>
    obtain ⟨above, name, entries, habove, hdirectory, rfl, hfree, rfl⟩ :=
      createTemporary_eq_ok hcreate
    rcases fill_cases prepared.system prepared.root (above ++ [name]) (Utf8.encode text.toList) with
      ⟨hfilled, hdone⟩ | ⟨file, cause, hfill⟩
    · rw [hfilled, hdone]
      cases hmove : (prepared.withText (above ++ [name]) text).moveOnto (above ++ [name]) path with
      | error cause =>
        unfold withText at hmove
        simp only [bind, Except.bind, hmove]
        rcases discard_cases (.plain (Utf8.encode text.toList)) habove hfree with hgone | hleft
        · exact .inl ⟨.disk ⟨cause, path⟩, by rw [hgone]⟩
        · exact .inr (.inl ⟨prepared, _, _, _, rfl, hleft, rfl⟩)
      | ok after =>
        obtain ⟨place, hend, hplace, hno, rfl⟩ :=
          withText_of_moveOnto habove hdirectory hfree hmove
        refine .inr (.inr ⟨prepared, place, rfl, hend, hplace, hno, ?_⟩)
        unfold withText at hmove ⊢
        simp only [bind, Except.bind, hmove]
    · rw [hfill]
      simp only [bind, Except.bind]
      rcases discard_cases file habove hfree with hgone | hleft
      · exact .inl ⟨.disk ⟨cause, path⟩, by rw [hgone]⟩
      · exact .inr (.inl ⟨prepared, _, _, _, rfl, hleft, rfl⟩)

/-- A granting system replaces a file wherever a path leads to no directory. -/
theorem replace_eq_ok {prepared : Disk} {above place : List String} {entries : List (String × Entry)}
    (text : String) (hprepare : disk.prepare path = (prepared, .ok ()))
    (hgrants : prepared.system.Grants) (hend : endsInPointer path = false)
    (habove : follow prepared.root [] (prepared.way path) = .ok above)
    (hdirectory : prepared.root.at? above = some (.directory entries))
    (hplace : prepared.place path = .ok place)
    (hno : ∀ inner, prepared.root.at? place ≠ some (.directory inner)) :
    disk.replace path text = (prepared.withText place text, .ok ()) := by
  obtain ⟨temporary, hfree, hcreate⟩ := exists_createTemporary hgrants habove hdirectory
  have hfill : fill prepared.system ((Entry.file (.plain [])).put prepared.root temporary) temporary
      (Utf8.encode text.toList) = ((prepared.withText temporary text).root, .ok ()) := by
    simp only [fill, hgrants.check, Entry.put_put_self, withText]
  have hmove := moveOnto_withText text hgrants hend habove hdirectory hfree hplace hno
  unfold replace
  simp only [hprepare, hcreate, hfill, bind, Except.bind]
  rw [show { prepared with root := (prepared.withText temporary text).root } =
    prepared.withText temporary text from rfl, hmove]

/-- A path leads to the same place once a file is there, and to the text in it. -/
theorem find_withText {place : List String} (text : String) (hend : endsInPointer path = false)
    (hplace : disk.place path = .ok place)
    (hno : ∀ inner, disk.root.at? place ≠ some (.directory inner)) :
    (disk.withText place text).place path = .ok place ∧
      (disk.withText place text).root.at? place = some (.file (.plain (Utf8.encode text.toList))) := by
  obtain ⟨hsteps, hlast⟩ := steps_eq_concat hend
  unfold Disk.place at hplace ⊢
  rw [hsteps, ← List.append_assoc] at hplace ⊢
  exact ⟨(putFile_keptBut [] _ hno).follow_eq hplace,
    Entry.at?_put_self (canTake_of_follow hlast hplace)⟩

/-- After replacing a file its path leads to a file with the new text, and all else has been kept. -/
theorem find_of_replace {text : String} (h : disk.replace path text = (after, .ok ())) :
    ∃ place, after.place path = .ok place ∧
      after.root.at? place = some (.file (.plain (Utf8.encode text.toList))) ∧
      KeptBut (disk.way path) [place] disk.root after.root := by
  rcases disk.replace_cases path text with
    ⟨fault, hfault⟩ | ⟨_, _, _, _, -, -, hfault⟩ | ⟨prepared, place, hprepare, hend, hplace, hno, hdone⟩
  · rw [hfault] at h
    cases h
  · rw [hfault] at h
    cases h
  · rw [hdone] at h
    cases h
    obtain ⟨hplace', hfile⟩ := find_withText text hend hplace hno
    have hprepared := disk.prepare_keptBut path
    rw [hprepare] at hprepared
    exact ⟨place, hplace', hfile, hprepared.trans (putFile_keptBut _ _ hno)⟩

/-- A temporary file beside a path that is there after all else has been kept: nothing was at its place,
which lies in the directory of the path, and the system refuses to remove it. -/
structure Leaves (disk : Disk) (path : String) (temporary : List String) (after : Entry) : Prop where
  refused : disk.system.refusal? (.remove temporary) ≠ none
  beside : ∃ above name, follow after [] (disk.way path) = .ok above ∧ temporary = above ++ [name]
  free : disk.root.at? temporary = none
  file : ∃ file, after.at? temporary = some (.file file)
  kept : KeptBut (disk.way path) [temporary] disk.root after

/-- Where replacing a file is refused, everything has been kept, but for a temporary file that could not
be removed. -/
theorem keptBut_of_replace {text : String} {fault : Fault}
    (h : disk.replace path text = (after, .error fault)) :
    KeptBut (disk.way path) [] disk.root after.root ∨
      ∃ temporary, disk.Leaves path temporary after.root := by
  have hkept := disk.prepare_keptBut path
  rcases disk.replace_cases path text with
    ⟨_, hfault⟩ | ⟨prepared, temporary, left, _, hprepare, hleft, hfault⟩ | ⟨_, _, -, -, -, -, hdone⟩
  · rw [hfault] at h
    cases h
    exact .inl hkept
  · rw [hfault] at h
    cases h
    have hprepared := disk.prepare_eq path
    rw [hprepare] at hkept hprepared
    dsimp only at hkept hprepared
    obtain ⟨hrefused, hfree, ⟨above, name, habove, htemporary⟩, file, rfl⟩ := hleft
    have hput := putFile_keptBut_of_isFree hfree file
    have hnone := Entry.held_eq_none.2 hfree.at?_eq_none
    rw [hprepared] at hrefused habove
    refine .inr ⟨temporary, hrefused, ⟨above, name, hput.follow_eq habove, htemporary⟩, ?_,
      ⟨file, Entry.at?_put_self hfree.canTake⟩, hkept.trans (hput.mono List.nil_prefix)⟩
    rw [← Entry.held_eq_none]
    rcases hkept.others temporary List.not_mem_nil with hsame | ⟨hbefore, -⟩
    · rw [← hsame, hnone]
    · exact hbefore
  · rw [hdone] at h
    cases h

end FlakeLint.Disk
