-- SUMMARY: Files that are made for a while: where they stand, and that removing them undoes everything.
import FlakeLint.Proofs.Disk.Keeping

/-!
# Temporary files

A temporary file gets a name that its directory does not have yet. It may be filled
in several steps; once it is removed, the tree is what it was before. It stays only
where even removing it is refused.
-/

namespace FlakeLint

namespace Entry

-- ---------------------------------------------------------------------------
-- Putting over and over, removing
-- ---------------------------------------------------------------------------

/-- What was put at a place before does not matter. -/
theorem put_put_self (old new root : Entry) (place : List String) :
    put new (put old root place) place = put new root place := by
  induction place generalizing root with
  | nil => simp
  | cons name rest ih =>
    cases root with
    | file file => simp
    | directory entries =>
      cases hfound : Table.get? entries name with
      | some inner =>
        rw [put_cons_of_some hfound, put_cons_of_some (Table.get?_put_self _ _ _), ih,
          Table.put_put_self, put_cons_of_some hfound]
      | none =>
        cases rest with
        | nil => simp [Table.put_put_self]
        | cons step rest => simp [put_cons_of_none hfound (List.cons_ne_nil step rest)]

/-- A place in a directory that has nothing of that name. -/
def IsFree (root : Entry) (place : List String) : Prop :=
  ∃ above name entries, place = above ++ [name] ∧ root.at? above = some (.directory entries) ∧
    Table.get? entries name = none

variable {root new : Entry} {place : List String}

theorem IsFree.canTake (h : root.IsFree place) : root.CanTake place := by
  obtain ⟨above, name, entries, hplace, habove, -⟩ := h
  exact .inr ⟨above, name, entries, hplace, habove⟩

theorem IsFree.at?_eq_none (h : root.IsFree place) : root.at? place = none := by
  obtain ⟨above, name, entries, rfl, habove, hname⟩ := h
  simp [at?_append, habove, hname]

theorem remove_cons_of_some {entries : List (String × Entry)} {name : String} {inner : Entry}
    (h : Table.get? entries name = some inner) {rest : List String} (hrest : rest ≠ []) :
    remove (.directory entries) (name :: rest) =
      .directory (Table.put entries name (inner.remove rest)) := by
  cases rest with
  | nil => exact absurd rfl hrest
  | cons step rest => rw [remove]; simp only [h]; simp

/-- What was put at a free place can be removed again. -/
theorem remove_put (h : root.IsFree place) (new : Entry) : (put new root place).remove place = root := by
  obtain ⟨above, name, entries, rfl, habove, hname⟩ := h
  induction above generalizing root with
  | nil =>
    obtain rfl : root = .directory entries := by simpa using habove
    simp [remove, Table.erase_put hname]
  | cons step above ih =>
    obtain ⟨others, inner, rfl, hinner, hrest⟩ := exists_of_at?_cons habove
    rw [List.cons_append, put_cons_of_some hinner,
      remove_cons_of_some (Table.get?_put_self _ _ _) (by simp), ih hrest, Table.put_put_self,
      Table.put_eq_self hinner]

end Entry

namespace System

-- ---------------------------------------------------------------------------
-- Granting systems
-- ---------------------------------------------------------------------------

/-- A system that refuses nothing and has a new name for every directory. -/
structure Grants (system : System) : Prop where
  refusal : ∀ step, system.refusal? step = none
  newName : ∀ names, system.newName names ∉ names

theorem Grants.check {system : System} (h : system.Grants) (step : WriteStep) :
    system.check step = .ok () := by
  simp only [System.check, h.refusal]

theorem granting_grants : granting.Grants where
  refusal _ := rfl
  newName := by
    intro names hmem
    -- The new name is longer than all other names together.
    have hshort : (granting.newName names).toList.length ≤ (names.flatMap String.toList).length := by
      rw [List.flatMap_def]
      exact (List.sublist_flatten_of_mem (List.mem_map_of_mem hmem)).length_le
    have htmp : "tmp".toList.length = 3 := rfl
    simp only [granting, String.toList_ofList, List.length_append] at hshort
    omega

end System

namespace Disk

-- ---------------------------------------------------------------------------
-- Making and filling
-- ---------------------------------------------------------------------------

variable {system : System} {root created : Entry} {steps place : List String}

/-- A file at a free place takes the place of nothing. -/
theorem putFile_keptBut_of_isFree (h : root.IsFree place) (file : File) :
    KeptBut [] [place] root ((Entry.file file).put root place) :=
  putFile_keptBut [] file (by simp [h.at?_eq_none])

/-- A temporary file is made in the directory that the steps lead to, under a name that was free. -/
theorem createTemporary_eq_ok (h : createTemporary system root steps = .ok (created, place)) :
    ∃ above name entries, follow root [] steps = .ok above ∧
      root.at? above = some (.directory entries) ∧ place = above ++ [name] ∧ root.IsFree place ∧
      created = (Entry.file (.plain [])).put root place := by
  unfold createTemporary at h
  obtain ⟨above, habove, h⟩ := exists_eq_ok_of_bind h
  split at h
  · next entries hdirectory =>
    dsimp only at h
    split at h
    · cases h
    · next hname =>
      rw [Bool.not_eq_true, Option.isSome_eq_false_iff, Option.isNone_iff_eq_none] at hname
      obtain ⟨_, -, h⟩ := exists_eq_ok_of_bind h
      cases h
      exact ⟨above, _, entries, habove, hdirectory, rfl,
        ⟨above, _, entries, rfl, hdirectory, hname⟩, rfl⟩
  · cases h
  · cases h

theorem exists_createTemporary {above : List String} {entries : List (String × Entry)}
    (hgrants : system.Grants) (habove : follow root [] steps = .ok above)
    (hdirectory : root.at? above = some (.directory entries)) :
    ∃ place, root.IsFree place ∧ createTemporary system root steps =
      .ok ((Entry.file (.plain [])).put root place, place) := by
  have hname : Table.get? entries (system.newName (Table.keys entries)) = none :=
    Table.get?_eq_none (hgrants.newName _)
  refine ⟨above ++ [_], ⟨above, _, entries, rfl, hdirectory, hname⟩, ?_⟩
  simp [createTemporary, habove, hdirectory, hname, hgrants.check, bind, Except.bind, pure, Except.pure]

/-- However far a new file was filled, some file has been put in its place. -/
theorem fill_cases (system : System) (root : Entry) (place : List String) (bytes : List UInt8) :
    (fill system ((Entry.file (.plain [])).put root place) place bytes).1 =
      (Entry.file (.plain bytes)).put root place ∧
      (fill system ((Entry.file (.plain [])).put root place) place bytes).2 = .ok () ∨
    ∃ file cause, fill system ((Entry.file (.plain [])).put root place) place bytes =
      ((Entry.file file).put root place, .error cause) := by
  unfold fill
  dsimp only
  split
  · exact .inl ⟨Entry.put_put_self _ _ root place, rfl⟩
  · next cause _ => exact .inr ⟨.plain (bytes.take system.room), cause, by rw [Entry.put_put_self]⟩

/-- A temporary file that is discarded leaves nothing behind, or stays where removing it is refused. -/
theorem discard_put_cases (system : System) (hfree : root.IsFree place) (new : Entry) :
    discard system (new.put root place) place = root ∨
    system.refusal? (.remove place) ≠ none ∧
      discard system (new.put root place) place = new.put root place := by
  unfold discard System.check
  cases system.refusal? (.remove place) with
  | none => exact .inl (Entry.remove_put hfree new)
  | some cause => exact .inr ⟨Option.some_ne_none cause, rfl⟩

end Disk

end FlakeLint
