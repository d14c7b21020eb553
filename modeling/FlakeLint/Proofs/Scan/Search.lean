-- SUMMARY: The files on a disk, how many of them a search can find, and what that depends on.
import FlakeLint.Discovery
import FlakeLint.Proofs.Disk.Contents
import FlakeLint.Proofs.Settings.Loading
import FlakeLint.Proofs.Tree.Outline
import Mathlib.Data.List.Sublists

/-!
# Searches

A search finds each file of a disk at most once, and what it finds is read from
the disk. With exclusions that are texts it always comes to an end. What the files
hold does not matter to it.
-/

namespace FlakeLint

/-! ## Files on a disk -/

namespace Entry

mutual
/-- The files of an entry, at any depth. -/
def contents : Entry → List File
  | .file content => [content]
  | .directory entries => contentsIn entries

def contentsIn : List (String × Entry) → List File
  | [] => []
  | (_, entry) :: rest => entry.contents ++ contentsIn rest
end

theorem contents_sublist_of_mem {entries : List (String × Entry)} {name : String} {entry : Entry}
    (h : (name, entry) ∈ entries) : entry.contents.Sublist (contentsIn entries) := by
  induction entries with
  | nil => cases h
  | cons first rest ih =>
    obtain ⟨firstName, firstEntry⟩ := first
    rw [contentsIn]
    rcases List.mem_cons.1 h with heq | hrest
    · cases heq
      exact List.sublist_append_left _ _
    · exact (ih hrest).trans (List.sublist_append_right _ _)

theorem contents_sublist_of_at? {root entry : Entry} {steps : List String}
    (h : root.at? steps = some entry) : entry.contents.Sublist root.contents := by
  induction steps generalizing root with
  | nil =>
    obtain rfl : root = entry := by simpa using h
    exact List.Sublist.refl _
  | cons name rest ih =>
    obtain ⟨entries, inner, rfl, hinner, hrest⟩ := exists_of_at?_cons h
    rw [contents]
    exact (ih hrest).trans (contents_sublist_of_mem (Table.mem_of_get? hinner))

end Entry

namespace Disk

/-- Has every node a position, in all trees of all files? -/
def isPositioned (disk : Disk) : Bool :=
  disk.root.contents.all fun file => file.outlines.all fun entry => entry.2.isPositioned

theorem contents_sublist_of_find? {disk : Disk} {path : String} {entry : Entry}
    (h : disk.find? path = some entry) : entry.contents.Sublist disk.root.contents := by
  obtain ⟨place, -, hat⟩ := exists_place_of_find? h
  exact Entry.contents_sublist_of_at? hat

theorem mem_contents_of_file {disk : Disk} {path : String} {file : File}
    (h : disk.file path = .ok file) : file ∈ disk.root.contents := by
  unfold Disk.file at h
  split at h
  · cases h
  · split at h
    · next hfound =>
      split at h
      · cases h
      · cases h
        exact (Entry.contents_sublist_of_at? hfound).subset (by simp [Entry.contents])
    · cases h
    · cases h

theorem mem_contents_of_read {disk : Disk} {path : String} {file : File} {text : List Char}
    (h : disk.read path = .ok (file, text)) : file ∈ disk.root.contents := by
  unfold read at h
  cases hfile : disk.file path with
  | ok found =>
    rw [hfile] at h
    cases htext : found.text with
    | ok cs =>
      simp only [htext, bind, Except.bind, pure, Except.pure] at h
      cases h
      exact mem_contents_of_file hfile
    | error cause =>
      simp only [htext, bind, Except.bind] at h
      cases h
  | error fault =>
    rw [hfile] at h
    cases h

/-- The trees of a file that can be read have positions if those of the disk have. -/
theorem isPositioned_of_read {disk : Disk} (h : disk.isPositioned) {path : String} {file : File}
    {text : List Char} (hread : disk.read path = .ok (file, text)) (grammars : List String) :
    Parsers.isPositioned ⟨grammars, file.outlines⟩ :=
  List.all_eq_true.1 h file (mem_contents_of_read hread)

end Disk

/-! ## Files found -/

namespace Discovery

variable (patterns : List Utf16)

theorem isExcluded_ok (path : String) :
    isExcluded (patterns.map .pattern) path = .ok (patterns.any (matchesText path)) := by
  unfold isExcluded
  induction patterns with
  | nil => rfl
  | cons pattern patterns ih =>
    rw [List.map_cons, List.anyM_cons, ih, List.any_cons]
    simp only [Exclusion.covers, bind, Except.bind, pure, Except.pure]
    cases matchesText path pattern <;> rfl

theorem takesFile_ok (base name : String) :
    ∃ taken, takesFile (patterns.map .pattern) base name = .ok taken := by
  unfold takesFile
  dsimp only
  split
  · rw [isExcluded_ok]
    exact ⟨_, rfl⟩
  · exact ⟨false, rfl⟩

theorem entersDirectory_ok (base name : String) :
    ∃ entered, entersDirectory (patterns.map .pattern) base name = .ok entered := by
  unfold entersDirectory
  split
  · exact ⟨false, rfl⟩
  · rw [isExcluded_ok]
    exact ⟨_, rfl⟩

mutual
theorem atEntry_ok (base name : String) (entry : Entry) :
    ∃ files, atEntry (patterns.map .pattern) base name entry = .ok files ∧
      files.length ≤ entry.contents.length := by
  match entry with
  | .file file =>
    obtain ⟨taken, htaken⟩ := takesFile_ok patterns base name
    unfold atEntry
    rw [htaken, Entry.contents]
    cases taken with
    | true => exact ⟨[base ++ name], rfl, le_refl 1⟩
    | false => exact ⟨[], rfl, Nat.zero_le 1⟩
  | .directory entries =>
    obtain ⟨entered, hentered⟩ := entersDirectory_ok patterns base name
    unfold atEntry
    rw [hentered, Entry.contents]
    cases entered with
    | true => exact below_ok (base ++ name ++ "/") entries
    | false => exact ⟨[], rfl, Nat.zero_le _⟩

theorem below_ok (base : String) (entries : List (String × Entry)) :
    ∃ files, below (patterns.map .pattern) base entries = .ok files ∧
      files.length ≤ (Entry.contentsIn entries).length := by
  match entries with
  | [] => exact ⟨[], rfl, Nat.zero_le _⟩
  | (name, entry) :: rest =>
    obtain ⟨first, hfirst, hle⟩ := atEntry_ok base name entry
    obtain ⟨others, hothers, hle'⟩ := below_ok base rest
    refine ⟨first ++ others, ?_, ?_⟩
    · unfold below
      rw [hfirst, hothers]
      rfl
    · rw [Entry.contentsIn, List.length_append, List.length_append]
      omega
end

/-- With exclusions that are texts a search always yields files, and no more than there are. -/
theorem testFiles_ok {setting : Json} (h : Exclusion.ofSetting setting =
      .ok (patterns.map .pattern)) (disk : Disk) (path : String) :
    ∃ files, testFiles disk path setting = .ok files ∧
      files.length ≤ disk.root.contents.length := by
  unfold testFiles
  cases hfound : disk.find? path with
  | none =>
    rw [h]
    exact ⟨[], rfl, Nat.zero_le _⟩
  | some entry =>
    have hle := (Disk.contents_sublist_of_find? hfound).length_le
    cases entry with
    | file file =>
      rw [Entry.contents] at hle
      exact ⟨_, rfl, hle⟩
    | directory entries =>
      obtain ⟨files, hfiles, hlength⟩ := below_ok patterns "" entries
      rw [Entry.contents] at hle
      rw [h]
      simp only [bind, Except.bind, hfiles]
      refine ⟨_, rfl, ?_⟩
      rw [List.length_mergeSort, List.length_map]
      omega

/-! ## Files with other contents -/

section

variable (exclusions : List Exclusion)

/-- An entry may take the place of one in which the same files are found. -/
theorem below_put {entries : List (String × Entry)} {name : String} {old new : Entry}
    (h : Table.get? entries name = some old)
    (hsame : ∀ base, atEntry exclusions base name new = atEntry exclusions base name old)
    (base : String) : below exclusions base (Table.put entries name new) =
      below exclusions base entries := by
  induction entries with
  | nil => cases h
  | cons first rest ih =>
    rw [Table.get?_cons] at h
    unfold Table.put
    split at h
    · next hname =>
      cases h
      cases hname
      simp only [if_true, below, hsame]
    · next hname => simp only [hname, if_false, below, ih h]

theorem atEntry_put_file {root : Entry} {place : List String} {old : File}
    (h : root.at? place = some (.file old)) (new : File) (base name : String) :
    atEntry exclusions base name (Entry.put (.file new) root place) =
      atEntry exclusions base name root := by
  induction place generalizing root base name with
  | nil =>
    obtain rfl : root = .file old := by simpa using h
    simp [atEntry]
  | cons step place ih =>
    obtain ⟨entries, inner, rfl, hinner, hplace⟩ := Entry.exists_of_at?_cons h
    simp only [Entry.put_cons_of_some hinner, atEntry,
      below_put exclusions hinner fun base => ih hplace base step]

theorem below_put_file {entries others : List (String × Entry)} {place : List String} {old new : File}
    (h : (Entry.directory entries).at? place = some (.file old))
    (hothers : Entry.put (.file new) (.directory entries) place = .directory others)
    (base : String) : below exclusions base others = below exclusions base entries := by
  cases place with
  | nil => simp at h
  | cons step place =>
    obtain ⟨_, inner, heq, hinner, hplace⟩ := Entry.exists_of_at?_cons h
    cases heq
    rw [Entry.put_cons_of_some hinner] at hothers
    cases hothers
    exact below_put exclusions hinner
      (fun base => atEntry_put_file exclusions hplace new base step) base

end

/-- A search finds the same files, whatever they hold. -/
theorem testFiles_withFile {disk : Disk} {place : List String} {old new : File}
    (h : disk.root.at? place = some (.file old)) (hcircle : new.isCircle = old.isCircle)
    (path : String) (setting : Json) :
    testFiles (disk.withFile place new) path setting = testFiles disk path setting := by
  unfold testFiles Disk.find? Disk.atPath?
  rw [Disk.place_withFile h hcircle]
  cases hplace : disk.place path with
  | error cause => rfl
  | ok other =>
    dsimp only [Disk.withFile]
    rcases Entry.at?_put_file_cases h new other with ⟨inner, rest, -, hinner, hrest, hsame⟩ | hsame
    · rw [hsame, hinner]
      cases inner with
      | file content =>
        cases rest with
        | nil =>
          obtain rfl : content = old := by simpa using hrest
          rw [Entry.put_nil, Option.filter_some, Option.filter_some]
          by_cases hleads : content.isCircle = true
          · simp only [Entry.isCircle, hcircle, hleads, Bool.not_true, Bool.false_eq_true,
              if_false]
          · simp only [Entry.isCircle, hcircle, hleads, Bool.not_false, if_true]
        | cons step rest => simp at hrest
      | directory entries =>
        obtain ⟨others, hothers⟩ := Entry.exists_put_file_eq_directory hrest new
        simp only [hothers, Option.filter_some, Entry.isCircle, Bool.not_false, if_true,
          below_put_file _ hrest hothers]
    · rw [hsame]

end Discovery

end FlakeLint
