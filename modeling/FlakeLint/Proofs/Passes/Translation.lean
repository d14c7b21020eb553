-- SUMMARY: Empty lines around a source move what is found in it, and change nothing else.
import FlakeLint.Proofs.Passes.Redrawn
import FlakeLint.Proofs.Tree.Padding

/-!
# Translation of sources

The windows of lines in which the analysis looks around are cut off at the ends of
a source. As empty lines hold nothing that is looked for, a source that stands
between empty lines is analysed as it is by itself.
-/

namespace FlakeLint

/-! ## Items of padded lists -/

section

variable {α : Type} {pad : α} {before after : Nat} {xs : List α}

theorem getElem?_padded {i : Nat} (h : i < xs.length) :
    (List.replicate before pad ++ xs ++ List.replicate after pad)[i + before]? = xs[i]? := by
  have hlength : (List.replicate before pad).length = before := List.length_replicate
  rw [List.append_assoc, List.getElem?_append_right (by omega), hlength, Nat.add_sub_cancel,
    List.getElem?_append_left h]

/-- What is not padding is an item of the list itself. -/
theorem exists_of_getElem?_padded {i : Nat} {x : α} (hx : x ≠ pad)
    (h : (List.replicate before pad ++ xs ++ List.replicate after pad)[i]? = some x) :
    ∃ j, i = j + before ∧ xs[j]? = some x := by
  have hpad {count j : Nat} : (List.replicate count pad)[j]? ≠ some x := by
    intro hj
    exact hx (List.eq_of_mem_replicate (List.mem_of_getElem? hj))
  have hlength : (List.replicate before pad).length = before := List.length_replicate
  rw [List.append_assoc] at h
  by_cases hbefore : i < before
  · rw [List.getElem?_append_left (by omega)] at h
    exact (hpad h).elim
  · rw [List.getElem?_append_right (by omega), hlength] at h
    by_cases hafter : i - before < xs.length
    · rw [List.getElem?_append_left hafter] at h
      exact ⟨i - before, by omega, h⟩
    · rw [List.getElem?_append_right (by omega)] at h
      exact (hpad h).elim

end

/-! ## Setup code -/

theorem Slice.mem_between {α : Type} {items : List α} {x : α} {start stop : Int}
    (hstart : 0 ≤ start) (hstop : 0 ≤ stop) :
    x ∈ between items start stop ↔ ∃ i : Nat, items[i]? = some x ∧ start ≤ i ∧ i < stop := by
  unfold between before position
  rw [if_neg (by omega), if_neg (by omega), List.mem_iff_getElem?]
  constructor
  · rintro ⟨i, hi⟩
    rw [List.getElem?_drop, List.getElem?_take] at hi
    split at hi
    · exact ⟨_, hi, by omega, by omega⟩
    · cases hi
  · rintro ⟨i, hi, hlow, hhigh⟩
    refine ⟨i - start.toNat, ?_⟩
    rw [List.getElem?_drop, List.getElem?_take, if_pos (by omega), ← hi]
    congr 1
    omega

namespace Setup

/-- The window reaches up to ten lines up and five down, wherever the source begins and ends. -/
theorem any_window_iff {lines : List String} {line : Int} (h : 1 ≤ line) (p : String → Bool) :
    (window lines line).any p ↔
      ∃ (i : Nat) (text : String),
        lines[i]? = some text ∧ p text ∧ line - 10 ≤ i ∧ i < line + 5 := by
  unfold window
  rw [List.any_eq_true]
  simp only [Slice.mem_between (show (0 : Int) ≤ max 0 (line - 10) by omega)
    (show 0 ≤ min (lines.length : Int) (line + 5) by omega)]
  constructor
  · rintro ⟨text, ⟨i, hi, hlow, hhigh⟩, hp⟩
    exact ⟨i, text, hi, hp, by omega, by omega⟩
  · rintro ⟨i, text, hi, hp, hlow, hhigh⟩
    have hlength := (List.getElem?_eq_some_iff.1 hi).1
    exact ⟨text, ⟨i, hi, by omega, by omega⟩, hp⟩

theorem any_window_padded (lines : List String) {line : Int} (h : 1 ≤ line)
    (before after : Nat) :
    (window (List.replicate before "" ++ lines ++ List.replicate after "")
        (line + before)).any isMarked =
      (window lines line).any isMarked := by
  have hblank : isMarked "" = false := by decide
  rw [Bool.eq_iff_iff, any_window_iff (by omega), any_window_iff h]
  constructor
  · rintro ⟨i, text, hi, hmarked, hlow, hhigh⟩
    -- An empty line is never marked, so a marked line is one of the source itself.
    have htext : text ≠ "" := by
      rintro rfl
      rw [hblank] at hmarked
      cases hmarked
    obtain ⟨j, rfl, hj⟩ := exists_of_getElem?_padded htext hi
    exact ⟨j, text, hj, hmarked, by omega, by omega⟩
  · rintro ⟨i, text, hi, hmarked, hlow, hhigh⟩
    have hlength := (List.getElem?_eq_some_iff.1 hi).1
    exact ⟨i + before, text, by rw [getElem?_padded hlength, hi], hmarked, by omega, by omega⟩

end Setup

/-! ## Sources between empty lines -/

theorem charColumn_padded {lines : List (List UInt8)} {row : Nat} (h : row < lines.length)
    (before after : Nat) (column : Int) :
    charColumn (List.replicate before [] ++ lines ++ List.replicate after [])
        ((row + before : Nat) : Int) column =
      charColumn lines row column := by
  unfold charColumn
  rw [if_pos (Int.natCast_nonneg _), if_pos (Int.natCast_nonneg _), Int.toNat_natCast,
    Int.toNat_natCast, getElem?_padded h]

theorem length_sourceLines (content : String) :
    (Text.sourceLines content).length = (byteLines (Utf8.encode content.toList)).length := by
  unfold Text.sourceLines byteLines
  rw [Utf8.splitOn_encode, List.length_map, List.length_map]

theorem row_ofOffset_lt {bytes : List UInt8} {n : Nat} (h : n ≤ bytes.length) :
    (Point.ofOffset bytes n).row < (byteLines bytes).length := by
  obtain ⟨line, hline, -⟩ := Point.ofOffset_on_line h
  exact (List.getElem?_eq_some_iff.1 hline).1

namespace TestFile

/-- Wherever an outline may refer to, the padded source shows what the source itself does. -/
theorem shows_padded (path grammar : String) (outline outline' : Outline) (content : String)
    (before after : Nat) {start stop : Nat}
    (hstart : start ≤ (Utf8.encode content.toList).length)
    (hstop : stop ≤ (Utf8.encode content.toList).length) :
    Shows before (ofOutline path content grammar outline)
      (ofOutline path (Text.padded before after content) grammar outline')
      ⟨.ofOffset (Utf8.encode content.toList) start, .ofOffset (Utf8.encode content.toList) stop⟩
      ⟨.ofOffset (Utf8.encode (Text.padded before after content).toList) (start + before),
        .ofOffset (Utf8.encode (Text.padded before after content).toList) (stop + before)⟩ := by
  have hlines : (ofOutline path (Text.padded before after content) grammar outline').lines =
      List.replicate before "" ++ Text.sourceLines content ++ List.replicate after "" :=
    Text.sourceLines_padded before after content
  have htable : (ofOutline path (Text.padded before after content) grammar outline').parsed.lines =
      List.replicate before [] ++ byteLines (Utf8.encode content.toList) ++
        List.replicate after [] := by
    show byteLines (Utf8.encode (Text.padded before after content).toList) = _
    unfold byteLines
    rw [Utf8.encode_padded, Text.splitOn_padded]
  have hrow := row_ofOffset_lt hstart
  have hrow' := row_ofOffset_lt hstop
  rw [Utf8.encode_padded, Point.ofOffset_padded hstart, Point.ofOffset_padded hstop]
  constructor
  · rfl
  · rfl
  · rw [htable]
    exact charColumn_padded hrow before after _
  · rw [htable]
    exact charColumn_padded hrow' before after _
  · rw [hlines]
    rw [← length_sourceLines] at hrow
    exact getElem?_padded hrow
  · have hline : (((Point.ofOffset (Utf8.encode content.toList) start).row + before + 1 : Nat) : Int) =
        ((Point.ofOffset (Utf8.encode content.toList) start).row + 1 : Nat) + before := by
      omega
    rw [hlines]
    dsimp only
    rw [hline]
    exact Setup.any_window_padded _ (by omega) before after

theorem redrawn_padded (path grammar : String) {content : String} {outline : Outline}
    (h : outline.isWithin (Utf8.encode content.toList).length) (before after : Nat) :
    (ofOutline path content grammar outline).Redrawn before
      (ofOutline path (Text.padded before after content) grammar (outline.behind before)) where
  path := rfl
  root := by
    refine Outline.place_behind ⟨fun hstart hstop => ?_, fun hstart hstop => ?_⟩ h
    · rw [Utf8.encode_padded]
      exact textBetween_padded hstart hstop before _
    · exact shows_padded path grammar _ _ content before after hstart hstop

end TestFile

/-- A source that stands between empty lines gets the output it gets by itself, and its tests are found
as before; the lines of issues and tests have moved with the source. -/
theorem Checker.analyze_padded {content : String} {outline : Outline}
    (h : outline.isWithin (Utf8.encode content.toList).length) (before after : Nat)
    (path grammar : String) (checker : Checker) :
    let file := TestFile.ofOutline path content grammar outline
    let other := TestFile.ofOutline path (Text.padded before after content) grammar
      (outline.behind before)
    checker.analyze other = (checker.analyze file).map (Output.down before) ∧
      checker.blocks other = (checker.blocks file).map (List.map (TestBlock.down before)) := by
  intro file other
  have hredrawn := TestFile.redrawn_padded path grammar h before after
  exact ⟨analyze_redrawn hredrawn checker, blocks_redrawn hredrawn checker⟩

/-- The issue of a fixed wait on the first line is found on the third. -/
theorem Checker.analyze_padded_fixed_wait :
    let file := TestFile.ofOutline "a.cy.js" (Sample.source "1000") defaultGrammar (Sample.outline 4)
    let other := TestFile.ofOutline "a.cy.js" (Text.padded 2 3 (Sample.source "1000"))
      defaultGrammar ((Sample.outline 4).behind 2)
    (Sample.outline 4).isWithin (Utf8.encode (Sample.source "1000").toList).length ∧
    ((asyncReliability.analyze file).toOption.map fun output => output.issues.map Issue.line) =
      some [some 1] ∧
    asyncReliability.analyze other = (asyncReliability.analyze file).map (Output.down 2) ∧
    asyncReliability.blocks other =
      (asyncReliability.blocks file).map (List.map (TestBlock.down 2)) := by
  have hwithin : (Sample.outline 4).isWithin (Utf8.encode (Sample.source "1000").toList).length := by
    decide +kernel
  exact ⟨hwithin, by decide +kernel, analyze_padded hwithin 2 3 _ _ asyncReliability⟩

end FlakeLint
