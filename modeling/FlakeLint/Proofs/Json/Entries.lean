-- SUMMARY: The entries of a document as its text lists them, with keys as often as they are repeated.
import FlakeLint.Json.Reader
import FlakeLint.Proofs.Table

/-!
# Listed entries

A table that has been read holds each key once, so it no longer shows what the text
said of a key before. The entries that the text lists show it, and the table is what
comes of writing them one after the other.
-/

namespace FlakeLint.Json

/-- The text starts with an entry: a key, a colon, and a value that may nest `depth` levels. -/
def StartsWithEntry (depth : Nat) (cs : List Char) (entry : Utf16 × Json) (rest : List Char) : Prop :=
  ∃ fuel quoted colon behind, cs = '"' :: quoted ∧ readText [] quoted = .ok (entry.1, colon) ∧
    skipGap colon = ':' :: behind ∧ readValue fuel depth (skipGap behind) = .ok (entry.2, rest)

/-- The text lists these entries, with commas between them and a brace at the end. -/
inductive ListsFrom (depth : Nat) : List Char → List (Utf16 × Json) → List Char → Prop
  | last {cs rest after : List Char} {entry : Utf16 × Json}
      (hentry : StartsWithEntry depth cs entry rest) (hend : skipGap rest = '}' :: after) :
      ListsFrom depth cs [entry] after
  | next {cs rest more after : List Char} {entry : Utf16 × Json} {others : List (Utf16 × Json)}
      (hentry : StartsWithEntry depth cs entry rest) (hcomma : skipGap rest = ',' :: more)
      (hothers : ListsFrom depth (skipGap more) others after) :
      ListsFrom depth cs (entry :: others) after

/-- The text is a document that lists these entries between braces, and may nest `depth` levels. -/
def Lists (depth : Nat) (text : List Char) (listed : List (Utf16 × Json)) : Prop :=
  ∃ inside after, skipGap text = '{' :: inside ∧ skipGap after = [] ∧
    (listed = [] ∧ skipGap inside = '}' :: after ∨
      ListsFrom (depth - 1) (skipGap inside) listed after)

-- ---------------------------------------------------------------------------
-- Reading what is listed
-- ---------------------------------------------------------------------------

section

variable {fuel depth : Nat} {cs rest : List Char} {value : Json}

theorem exists_list_of_readItems {done : List Json}
    (h : readItems fuel depth done cs = .ok (value, rest)) : ∃ items, value = .list items := by
  induction fuel generalizing done cs with
  | zero => cases h
  | succ fuel ih =>
    unfold readItems at h
    split at h
    · cases h
    · split at h
      · exact ih h
      · cases h
        exact ⟨_, rfl⟩
      · cases h

/-- What is listed from here on is written behind the entries that came before. -/
theorem exists_listed_of_readEntries {done : List (Utf16 × Json)}
    (h : readEntries fuel depth done cs = .ok (value, rest)) :
    ∃ listed, ListsFrom depth cs listed rest ∧
      value = .table (Table.ofList (done.reverse ++ listed)) := by
  induction fuel generalizing done cs with
  | zero => cases h
  | succ fuel ih =>
    unfold readEntries at h
    split at h
    · next quoted =>
      split at h
      · cases h
      · next key colon hkey =>
        split at h
        · next behind hcolon =>
          split at h
          · cases h
          · next found after hvalue =>
            have hentry : StartsWithEntry depth ('"' :: quoted) (key, found) after :=
              ⟨fuel, quoted, colon, behind, rfl, hkey, hcolon, hvalue⟩
            split at h
            · next more hcomma =>
              obtain ⟨others, hothers, rfl⟩ := ih h
              exact ⟨(key, found) :: others, .next hentry hcomma hothers, by simp⟩
            · next hend =>
              cases h
              exact ⟨[(key, found)], .last hentry hend, by simp⟩
            · cases h
        · cases h
    · cases h

theorem readScalar_ne_table {entries : List (Utf16 × Json)} :
    readScalar cs ≠ .ok (.table entries, rest) := by
  intro h
  unfold readScalar at h
  split at h
  · next found hfound =>
    obtain ⟨word, hword, heq⟩ := List.exists_of_findSome?_eq_some hfound
    obtain ⟨after, -, rfl⟩ := Option.map_eq_some_iff.1 heq
    have hvalue : word.2 = .table entries := congrArg Prod.fst (Except.ok.inj h)
    simp only [words, List.mem_cons, List.not_mem_nil, or_false] at hword
    rcases hword with rfl | rfl | rfl | rfl | rfl | rfl <;> cases hvalue
  · split at h
    · cases hnumber : readUnsigned true _ <;> rw [hnumber] at h <;> cases h
    · cases hnumber : readUnsigned false _ <;> rw [hnumber] at h <;> cases h

/-- A table that is read is written by the entries that are listed between its braces. -/
theorem exists_listed_of_readValue {entries : List (Utf16 × Json)}
    (h : readValue fuel depth cs = .ok (.table entries, rest)) :
    ∃ inside listed, cs = '{' :: inside ∧ entries = Table.ofList listed ∧
      (listed = [] ∧ skipGap inside = '}' :: rest ∨
        ListsFrom (depth - 1) (skipGap inside) listed rest) := by
  cases fuel with
  | zero => cases h
  | succ fuel =>
    unfold readValue at h
    split at h
    · next quoted =>
      cases htext : readText [] quoted <;> rw [htext] at h <;> cases h
    · cases depth with
      | zero => cases h
      | succ depth =>
        dsimp only at h
        split at h
        · cases h
        · obtain ⟨items, hitems⟩ := exists_list_of_readItems h
          cases hitems
    · next inside =>
      cases depth with
      | zero => cases h
      | succ depth =>
        dsimp only at h
        split at h
        · next after hend =>
          cases h
          exact ⟨inside, [], rfl, rfl, .inl ⟨rfl, hend⟩⟩
        · obtain ⟨listed, hlisted, hvalue⟩ := exists_listed_of_readEntries h
          refine ⟨inside, listed, rfl, ?_, .inr hlisted⟩
          simpa using hvalue
    · exact absurd h readScalar_ne_table

end

/-- A document that is read as a table lists the entries that write the table. -/
theorem exists_listed_of_parseWithin {depth : Nat} {text : List Char}
    {entries : List (Utf16 × Json)} (h : parseWithin depth text = .ok (.table entries)) :
    ∃ listed, Lists depth text listed ∧ entries = Table.ofList listed := by
  unfold parseWithin at h
  cases hvalue : readValue (enoughFuel text) depth (skipGap text) with
  | error refusal =>
    rw [hvalue] at h
    cases h
  | ok found =>
    obtain ⟨value, after⟩ := found
    simp only [hvalue, bind, Except.bind] at h
    split at h
    · next hend =>
      cases h
      obtain ⟨inside, listed, hinside, hentries, hlisted⟩ := exists_listed_of_readValue hvalue
      exact ⟨listed, ⟨inside, after, hinside, by simpa using hend, hlisted⟩, hentries⟩
    · cases h

end FlakeLint.Json
