-- SUMMARY: All files below an entry, listed by their places.
import FlakeLint.Proofs.Disk.Places
import FlakeLint.Proofs.Table

/-!
# Listed files

The places of the files below an entry, in the order of its tables. A place is
listed once if no directory has two entries of one name, and it is listed exactly
if a file is found there.
-/

namespace FlakeLint.Entry

-- ---------------------------------------------------------------------------
-- Trees with ordinary names
-- ---------------------------------------------------------------------------

/-- Can the text be the name of a file or directory, and is it free of backslashes? -/
def isOrdinary (name : String) : Bool :=
  Path.isStep name && name != ".." && !name.toList.contains '\\'

mutual
/-- Are all names ordinary, and different within each directory? -/
def isWellNamed : Entry → Bool
  | .file _ => true
  | .directory entries => (Table.keys entries).Nodup && areWellNamed entries

def areWellNamed : List (String × Entry) → Bool
  | [] => true
  | (name, entry) :: rest => isOrdinary name && entry.isWellNamed && areWellNamed rest
end

/-- Can the text be the name of a file or directory? -/
def isName (name : String) : Bool :=
  Path.isStep name && name != ".."

mutual
/-- Are all names of the kind, and different within each directory? -/
def isNamedBy (kind : String → Bool) : Entry → Bool
  | .file _ => true
  | .directory entries => (Table.keys entries).Nodup && areNamedBy kind entries

def areNamedBy (kind : String → Bool) : List (String × Entry) → Bool
  | [] => true
  | (name, entry) :: rest => kind name && entry.isNamedBy kind && areNamedBy kind rest
end

mutual
theorem isNamedBy_isOrdinary (entry : Entry) : entry.isNamedBy isOrdinary = entry.isWellNamed := by
  match entry with
  | .file _ => rfl
  | .directory entries => rw [isNamedBy, isWellNamed, areNamedBy_isOrdinary entries]

theorem areNamedBy_isOrdinary (entries : List (String × Entry)) :
    areNamedBy isOrdinary entries = areWellNamed entries := by
  match entries with
  | [] => rfl
  | (name, entry) :: rest =>
    rw [areNamedBy, areWellNamed, isNamedBy_isOrdinary entry, areNamedBy_isOrdinary rest]
end

section

variable {kind : String → Bool} {entries : List (String × Entry)} {name : String} {entry : Entry}

theorem areNamedBy_iff :
    areNamedBy kind entries ↔ ∀ entry ∈ entries, kind entry.1 ∧ entry.2.isNamedBy kind := by
  induction entries with
  | nil => simp [areNamedBy]
  | cons entry entries ih => simp [areNamedBy, ih]

theorem isNamedBy_of_mem (h : (Entry.directory entries).isNamedBy kind)
    (hmem : (name, entry) ∈ entries) : kind name ∧ entry.isNamedBy kind := by
  simp only [isNamedBy, Bool.and_eq_true] at h
  exact areNamedBy_iff.1 h.2 (name, entry) hmem

theorem isNamedBy_of_at? {root : Entry} {names : List String} (h : root.isNamedBy kind)
    (hat : root.at? names = some entry) : entry.isNamedBy kind ∧ ∀ name ∈ names, kind name := by
  induction names generalizing root with
  | nil =>
    obtain rfl : root = entry := by simpa using hat
    exact ⟨h, by simp⟩
  | cons name names ih =>
    obtain ⟨entries, inner, rfl, hinner, hat⟩ := exists_of_at?_cons hat
    obtain ⟨hname, hwell⟩ := isNamedBy_of_mem h (Table.mem_of_get? hinner)
    obtain ⟨hentry, hnames⟩ := ih hwell hat
    exact ⟨hentry, List.forall_mem_cons.2 ⟨hname, hnames⟩⟩

theorem isWellNamed_of_mem (h : (Entry.directory entries).isWellNamed)
    (hmem : (name, entry) ∈ entries) : isOrdinary name ∧ entry.isWellNamed := by
  rw [← isNamedBy_isOrdinary] at h ⊢
  exact isNamedBy_of_mem h hmem

theorem isWellNamed_of_at? {root : Entry} {names : List String} (h : root.isWellNamed)
    (hat : root.at? names = some entry) : entry.isWellNamed ∧ ∀ name ∈ names, isOrdinary name := by
  rw [← isNamedBy_isOrdinary] at h ⊢
  exact isNamedBy_of_at? h hat

end

-- ---------------------------------------------------------------------------
-- Places of files
-- ---------------------------------------------------------------------------

mutual
/-- The places of the files of an entry, from the entry on. -/
def places : Entry → List (List String)
  | .file _ => [[]]
  | .directory entries => placesIn entries

def placesIn : List (String × Entry) → List (List String)
  | [] => []
  | (name, entry) :: rest => entry.places.map (name :: ·) ++ placesIn rest
end

theorem ne_nil_of_mem_placesIn {entries : List (String × Entry)} {names : List String}
    (h : names ∈ placesIn entries) : names ≠ [] := by
  induction entries with
  | nil => cases h
  | cons first rest ih =>
    rcases List.mem_append.1 h with hfirst | hrest
    · obtain ⟨inner, -, rfl⟩ := List.mem_map.1 hfirst
      exact List.cons_ne_nil _ _
    · exact ih hrest

variable {kind : String → Bool}

mutual
theorem mem_places_iff (entry : Entry) (h : entry.isNamedBy kind) (names : List String) :
    names ∈ entry.places ↔ ∃ file, entry.at? names = some (.file file) := by
  match entry with
  | .file content => cases names <;> simp [places]
  | .directory entries =>
    have hplaces := mem_placesIn_iff entries (isNamedBy_of_mem h) names
    simp only [isNamedBy, Bool.and_eq_true, decide_eq_true_eq] at h
    rw [places, hplaces]
    constructor
    · rintro ⟨name, inner, rest, file, hmem, rfl, hfile⟩
      exact ⟨file, by simp [Table.get?_of_mem h.1 hmem, hfile]⟩
    · rintro ⟨file, hfile⟩
      cases names with
      | nil => simp at hfile
      | cons name rest =>
        obtain ⟨_, inner, heq, hinner, hfile⟩ := exists_of_at?_cons hfile
        cases heq
        exact ⟨name, inner, rest, file, Table.mem_of_get? hinner, rfl, hfile⟩

theorem mem_placesIn_iff (entries : List (String × Entry))
    (h : ∀ {name entry}, (name, entry) ∈ entries → kind name ∧ entry.isNamedBy kind)
    (names : List String) : names ∈ placesIn entries ↔
      ∃ name entry rest file, (name, entry) ∈ entries ∧ names = name :: rest ∧
        entry.at? rest = some (.file file) := by
  match entries with
  | [] => simp [placesIn]
  | (first, entry) :: others =>
    have hfirst := mem_places_iff entry (h List.mem_cons_self).2
    have hothers := mem_placesIn_iff others (fun hmem => h (List.mem_cons_of_mem _ hmem)) names
    rw [placesIn, List.mem_append, hothers, List.mem_map]
    constructor
    · rintro (⟨rest, hrest, rfl⟩ | ⟨name, inner, rest, file, hmem, hnames, hfile⟩)
      · obtain ⟨file, hfile⟩ := (hfirst rest).1 hrest
        exact ⟨first, entry, rest, file, List.mem_cons_self, rfl, hfile⟩
      · exact ⟨name, inner, rest, file, List.mem_cons_of_mem _ hmem, hnames, hfile⟩
    · rintro ⟨name, inner, rest, file, hmem, rfl, hfile⟩
      rcases List.mem_cons.1 hmem with heq | hmem
      · cases heq
        exact .inl ⟨rest, (hfirst rest).2 ⟨file, hfile⟩, rfl⟩
      · exact .inr ⟨name, inner, rest, file, hmem, rfl, hfile⟩
end

/-- The names on the way to a file are of the kind that the tree has. -/
theorem kind_of_mem_placesIn {entries : List (String × Entry)} {names : List String}
    (h : (Entry.directory entries).isNamedBy kind) (hnames : names ∈ placesIn entries) :
    ∀ name ∈ names, kind name := by
  obtain ⟨file, hfile⟩ := (mem_places_iff (.directory entries) h names).1 hnames
  exact (isNamedBy_of_at? h hfile).2

mutual
theorem nodup_places (entry : Entry) (h : entry.isNamedBy kind) : entry.places.Nodup := by
  match entry with
  | .file content => simp [places]
  | .directory entries =>
    have hinner {name inner} (hmem : (name, inner) ∈ entries) := isNamedBy_of_mem h hmem
    simp only [isNamedBy, Bool.and_eq_true, decide_eq_true_eq] at h
    exact nodup_placesIn entries hinner h.1

theorem nodup_placesIn (entries : List (String × Entry))
    (h : ∀ {name entry}, (name, entry) ∈ entries → kind name ∧ entry.isNamedBy kind)
    (hkeys : (Table.keys entries).Nodup) : (placesIn entries).Nodup := by
  match entries with
  | [] => simp [placesIn]
  | (first, entry) :: others =>
    rw [Table.keys_cons, List.nodup_cons] at hkeys
    have hothers {name inner} (hmem : (name, inner) ∈ others) := h (List.mem_cons_of_mem _ hmem)
    have hfirst := nodup_places entry (h List.mem_cons_self).2
    rw [placesIn, List.nodup_append]
    refine ⟨hfirst.map fun _ _ heq => (List.cons.inj heq).2, nodup_placesIn others hothers hkeys.2, ?_⟩
    -- Places of the first entry begin with its name, the other ones with other names.
    rintro names hnames _ hmem rfl
    obtain ⟨rest, -, rfl⟩ := List.mem_map.1 hnames
    obtain ⟨name, inner, rest', file, hmem, heq, -⟩ := (mem_placesIn_iff others hothers _).1 hmem
    obtain ⟨rfl, -⟩ := List.cons.inj heq
    exact hkeys.1 (List.mem_map.2 ⟨(first, inner), hmem, rfl⟩)
end

end FlakeLint.Entry
