-- SUMMARY: A source with empty lines put before and after it: its lines, and its outline in it.
import FlakeLint.Proofs.Tree.Placement
import FlakeLint.Proofs.Tree.Redrawn

/-!
# Padding

Empty lines before a source move its lines, the places of its offsets and its
outline down, and change nothing else about them. Empty lines after it do not
touch them.
-/

namespace FlakeLint

/-! ## Lines -/

namespace Text

/-- A source with so many empty lines before and after it. -/
def padded (before after : Nat) (content : String) : String :=
  String.ofList (List.replicate before '\n' ++ content.toList ++ List.replicate after '\n')

theorem toList_padded (before after : Nat) (content : String) :
    (padded before after content).toList =
      List.replicate before '\n' ++ content.toList ++ List.replicate after '\n' :=
  String.toList_ofList

theorem splitOn_append_replicate {α : Type} [BEq α] [LawfulBEq α] (sep : α) (xs : List α)
    (after : Nat) :
    splitOn sep (xs ++ List.replicate after sep) = splitOn sep xs ++ List.replicate after [] := by
  induction after with
  | zero => rw [List.replicate_zero, List.replicate_zero, List.append_nil, List.append_nil]
  | succ after ih =>
    rw [List.replicate_succ', List.replicate_succ', ← List.append_assoc, splitOn_append_cons, ih,
      List.append_assoc]
    rfl

theorem splitOn_padded {α : Type} [BEq α] [LawfulBEq α] (sep : α) (before after : Nat)
    (xs : List α) :
    splitOn sep (List.replicate before sep ++ xs ++ List.replicate after sep) =
      List.replicate before [] ++ splitOn sep xs ++ List.replicate after [] := by
  induction before with
  | zero => exact splitOn_append_replicate sep xs after
  | succ before ih =>
    rw [List.replicate_succ, List.cons_append, List.cons_append, splitOn_cons_self, ih]
    rfl

theorem sourceLines_padded (before after : Nat) (content : String) :
    sourceLines (padded before after content) =
      List.replicate before "" ++ sourceLines content ++ List.replicate after "" := by
  unfold sourceLines
  rw [toList_padded, splitOn_padded, List.map_append, List.map_append, List.map_replicate,
    List.map_replicate]

end Text

theorem Utf8.encode_replicate_newline (count : Nat) :
    encode (List.replicate count '\n') = List.replicate count 0x0A := by
  induction count with
  | zero => rfl
  | succ count ih =>
    rw [List.replicate_succ, encode_cons, ih]
    rfl

theorem Utf8.encode_padded (before after : Nat) (content : String) :
    encode (Text.padded before after content).toList =
      List.replicate before 0x0A ++ encode content.toList ++ List.replicate after 0x0A := by
  rw [Text.toList_padded, encode_append, encode_append, encode_replicate_newline,
    encode_replicate_newline]

/-! ## Places and text -/

theorem Point.ofOffset_append {bytes : List UInt8} {n : Nat} (h : n ≤ bytes.length)
    (rest : List UInt8) : ofOffset (bytes ++ rest) n = ofOffset bytes n := by
  rw [← ofOffset_take h, ← ofOffset_take (h.trans (by simp)), List.take_append_of_le_length h]

/-- Behind newlines, places are as many rows further down. -/
theorem Point.ofOffset_newlines (before : Nat) (bytes : List UInt8) (n : Nat) :
    ofOffset (List.replicate before 0x0A ++ bytes) (n + before) =
      ⟨(ofOffset bytes n).row + before, (ofOffset bytes n).column⟩ := by
  induction before with
  | zero => rfl
  | succ before ih =>
    rw [List.replicate_succ, List.cons_append, ← Nat.add_assoc, ofOffset, ih]
    rfl

theorem Point.ofOffset_padded {bytes : List UInt8} {n : Nat} (h : n ≤ bytes.length)
    (before : Nat) (rest : List UInt8) :
    ofOffset (List.replicate before 0x0A ++ bytes ++ rest) (n + before) =
      ⟨(ofOffset bytes n).row + before, (ofOffset bytes n).column⟩ := by
  rw [List.append_assoc, ofOffset_newlines, ofOffset_append h]

theorem textBetween_padded {bytes : List UInt8} {start stop : Nat} (hstart : start ≤ bytes.length)
    (hstop : stop ≤ bytes.length) (before : Nat) (rest : List UInt8) :
    textBetween ⟨(List.replicate before 0x0A ++ bytes ++ rest).toArray⟩ (start + before)
        (stop + before) =
      textBetween ⟨bytes.toArray⟩ start stop := by
  have hdrop : (List.replicate before 0x0A ++ bytes ++ rest).drop (start + before) =
      bytes.drop start ++ rest := by
    rw [List.append_assoc, Nat.add_comm start, ← List.drop_drop, List.drop_left' (by simp),
      List.drop_append_of_le_length hstart]
  rw [textBetween_eq, textBetween_eq, hdrop, Nat.add_sub_add_right,
    List.take_append_of_le_length]
  rw [List.length_drop]
  omega

/-! ## Outlines -/

namespace Outline

mutual
/-- The outline with all offsets moved on by so many bytes. -/
def behind (bytes : Nat) : Outline → Outline
  | .mk kind named missing hasError role range children =>
    .mk kind named missing hasError role
      (range.map fun (start, stop) => (start + bytes, stop + bytes)) (behindAll bytes children)

def behindAll (bytes : Nat) : List Outline → List Outline
  | [] => []
  | outline :: outlines => outline.behind bytes :: behindAll bytes outlines
end

/-- Does every node of an outline have a range, and within a source of so many bytes? -/
def isWithin (length : Nat) (outline : Outline) : Bool :=
  outline.everywhere fun range => range.any fun (start, stop) => start ≤ length && stop ≤ length

/-- So many bytes further on, `other` has the text of `bytes`, at spans that are related by `R`. -/
structure Holds (R : Span → Span → Prop) (moved : Nat) (bytes other : List UInt8) : Prop where
  text {start stop : Nat} : start ≤ bytes.length → stop ≤ bytes.length →
    textBetween ⟨other.toArray⟩ (start + moved) (stop + moved) =
      textBetween ⟨bytes.toArray⟩ start stop
  span {start stop : Nat} : start ≤ bytes.length → stop ≤ bytes.length →
    R ⟨.ofOffset bytes start, .ofOffset bytes stop⟩
      ⟨.ofOffset other (start + moved), .ofOffset other (stop + moved)⟩

variable {R : Span → Span → Prop} {bytes other : List UInt8} {moved : Nat}

mutual
/-- Where the text is found further on, the outline placed there gives the tree of the source, redrawn. -/
theorem place_behind (hother : Holds R moved bytes other) {outline : Outline}
    (h : outline.isWithin bytes.length) :
    (outline.place ⟨bytes.toArray⟩ (pointsOf bytes)).Redrawn R
      ((outline.behind moved).place ⟨other.toArray⟩ (pointsOf other)) := by
  obtain ⟨kind, named, missing, hasError, role, range, children⟩ := outline
  unfold isWithin at h
  rw [everywhere, Bool.and_eq_true] at h
  obtain ⟨⟨start, stop⟩, rfl, hrange⟩ := (Option.any_eq_true _ _).1 h.1
  simp only [Bool.and_eq_true, decide_eq_true_eq] at hrange
  have hspan := hother.span hrange.1 hrange.2
  rw [← pointAt_pointsOf, ← pointAt_pointsOf, ← pointAt_pointsOf, ← pointAt_pointsOf] at hspan
  unfold behind place
  dsimp only [Option.map_some]
  rw [hother.text hrange.1 hrange.2]
  exact .mk rfl hspan (placeAll_behind hother h.2)

theorem placeAll_behind (hother : Holds R moved bytes other) {outlines : List Outline}
    (h : everywhereIn (fun range => range.any fun (start, stop) =>
      start ≤ bytes.length && stop ≤ bytes.length) outlines) :
    Node.RedrawnAll R (placeAll ⟨bytes.toArray⟩ (pointsOf bytes) outlines)
      (placeAll ⟨other.toArray⟩ (pointsOf other) (behindAll moved outlines)) := by
  match outlines with
  | [] => exact .nil
  | outline :: outlines =>
    rw [everywhereIn, Bool.and_eq_true] at h
    exact .keep (place_behind hother h.1) (placeAll_behind hother h.2)
end

end Outline

end FlakeLint
