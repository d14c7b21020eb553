-- SUMMARY: Trees whose spans nest within a source, and the locations that they give to issues.
import FlakeLint.Proofs.Tree.Placement
import FlakeLint.TestFile

/-!
# Nested spans

Where the span of every node lies within that of its parent, and all within the
source, a location from the start of one node to the end of another one around it
lies within the source: its lines are there, and its column is one of its line. For
lines alone it is enough that spans nest as pairs of places: a node then begins on a
line of every node around it.
-/

namespace FlakeLint

/-! ## Nested outlines and nested trees -/

namespace Outline

mutual
/-- Does the range of every node lie within that of its parent, and the outermost within bounds? -/
def isNested (low high : Nat) : Outline → Bool
  | .mk _ _ _ _ _ (some (start, stop)) children =>
    low ≤ start && start ≤ stop && stop ≤ high && areNested start stop children
  | .mk _ _ _ _ _ none _ => false

def areNested (low high : Nat) : List Outline → Bool
  | [] => true
  | outline :: outlines => outline.isNested low high && areNested low high outlines
end

end Outline

namespace Node

/-- Every node spans two offsets of the source, within those of its parent; the outermost within
bounds. -/
inductive IsNested (bytes : List UInt8) : Nat → Nat → Node → Prop where
  | mk {low high start stop : Nat} {head : Head} {children : List Node} :
    low ≤ start → start ≤ stop → stop ≤ high →
    head.span = some ⟨.ofOffset bytes start, .ofOffset bytes stop⟩ →
    (∀ child ∈ children, IsNested bytes start stop child) →
    IsNested bytes low high (.mk head children)

variable {bytes : List UInt8} {low high : Nat}

mutual
theorem isNested_place {low high : Nat} {outline : Outline} (h : outline.isNested low high) :
    IsNested bytes low high (outline.place ⟨bytes.toArray⟩ (pointsOf bytes)) := by
  match outline with
  | .mk kind named missing hasError role (some (start, stop)) children =>
    simp only [Outline.isNested, Bool.and_eq_true, decide_eq_true_eq] at h
    obtain ⟨⟨⟨hstart, hspan⟩, hstop⟩, hchildren⟩ := h
    unfold Outline.place
    refine .mk hstart hspan hstop ?_ (isNested_placeAll hchildren)
    simp only [Option.map_some, pointAt_pointsOf]
  | .mk _ _ _ _ _ none _ =>
    rw [Outline.isNested] at h
    cases h

theorem isNested_placeAll {low high : Nat} {outlines : List Outline} (h : Outline.areNested low high outlines) :
    ∀ child ∈ placeAll ⟨bytes.toArray⟩ (pointsOf bytes) outlines,
      IsNested bytes low high child := by
  match outlines with
  | [] =>
    intro child hchild
    cases hchild
  | outline :: outlines =>
    rw [Outline.areNested, Bool.and_eq_true] at h
    unfold placeAll
    exact List.forall_mem_cons.2 ⟨isNested_place h.1, isNested_placeAll h.2⟩
end

theorem IsNested.mono {n : Node} (h : n.IsNested bytes low high) {low' high' : Nat}
    (hlow : low' ≤ low) (hhigh : high ≤ high') : n.IsNested bytes low' high' := by
  cases h with
  | mk hstart hspan hstop heq hchildren =>
    exact .mk (hlow.trans hstart) hspan (hstop.trans hhigh) heq hchildren

theorem IsNested.of_contains {n m : Node} (hm : n.Contains m) (h : n.IsNested bytes low high) :
    m.IsNested bytes low high := by
  induction hm generalizing low high with
  | self => exact h
  | step hchild _ ih =>
    cases h with
    | mk hstart hspan hstop heq hchildren =>
      exact (ih (hchildren _ hchild)).mono hstart hstop

/-- A node starts before any node around it ends. -/
theorem IsNested.exists_offsets {first last : Node} (h : last.IsNested bytes low high)
    (hfirst : last.Contains first) :
    ∃ start stop, start ≤ stop ∧ stop ≤ high ∧ first.start = .ofOffset bytes start ∧
      last.stop = .ofOffset bytes stop := by
  cases h with
  | @mk _ _ start stop head children hstart hspan hstop heq hchildren =>
    have hend : (Node.mk head children).stop = .ofOffset bytes stop := by
      simp [Node.stop, Node.head, heq]
    have hbelow : first.IsNested bytes start stop :=
      IsNested.of_contains hfirst (.mk le_rfl hspan le_rfl heq hchildren)
    cases hbelow with
    | @mk _ _ start' stop' head' _ hstart' hspan' hstop' heq' _ =>
      refine ⟨start', stop, hspan'.trans hstop', hstop, ?_, hend⟩
      simp [Node.start, Node.head, heq']

/-! ## Nested spans, whatever the source -/

/-- Every node has a span inside that of its parent; the outermost one lies inside `outer`. -/
inductive NestsIn : Span → Node → Prop where
  | mk {outer span : Span} {head : Head} {children : List Node} :
    outer.start.IsUpTo span.start → span.start.IsUpTo span.stop → span.stop.IsUpTo outer.stop →
    head.span = some span → (∀ child ∈ children, NestsIn span child) →
    NestsIn outer (.mk head children)

variable {outer : Span}

/-- Offsets that nest give spans that nest. -/
theorem IsNested.nestsIn {n : Node} (h : n.IsNested bytes low high) :
    n.NestsIn ⟨.ofOffset bytes low, .ofOffset bytes high⟩ := by
  induction n using induction_children generalizing low high with
  | mk head children ih =>
    cases h with
    | mk hstart hspan hstop heq hchildren =>
      exact .mk (Point.ofOffset_isUpTo bytes hstart) (Point.ofOffset_isUpTo bytes hspan)
        (Point.ofOffset_isUpTo bytes hstop) heq
        fun child hchild => ih child hchild (hchildren child hchild)

theorem NestsIn.isPositioned {n : Node} (h : n.NestsIn outer) : n.isPositioned := by
  induction n using induction_children generalizing outer with
  | mk head children ih =>
    cases h with
    | mk _ _ _ heq hchildren =>
      unfold Node.isPositioned everywhere
      rw [Bool.and_eq_true, everywhereIn_eq_true, heq]
      exact ⟨rfl, fun child hchild => ih child hchild (hchildren child hchild)⟩

theorem IsNested.isPositioned {n : Node} (h : n.IsNested bytes low high) : n.isPositioned :=
  h.nestsIn.isPositioned

theorem NestsIn.mono {n : Node} {outer' : Span} (h : n.NestsIn outer)
    (hstart : outer'.start.IsUpTo outer.start) (hstop : outer.stop.IsUpTo outer'.stop) :
    n.NestsIn outer' := by
  cases h with
  | mk hlow hspan hhigh heq hchildren =>
    exact .mk (hstart.trans hlow) hspan (hhigh.trans hstop) heq hchildren

theorem NestsIn.of_contains {n m : Node} (hm : n.Contains m) (h : n.NestsIn outer) :
    m.NestsIn outer := by
  induction hm generalizing outer with
  | self => exact h
  | step hchild _ ih =>
    cases h with
    | mk hstart hspan hstop heq hchildren =>
      exact (ih (hchildren _ hchild)).mono hstart hstop

/-- The first line of a node comes no later than its last one, and both lie inside `outer`. -/
theorem NestsIn.rows {n : Node} (h : n.NestsIn outer) :
    outer.start.row ≤ n.start.row ∧ n.start.row ≤ n.stop.row ∧ n.stop.row ≤ outer.stop.row := by
  cases h with
  | @mk _ span head children hstart hspan hstop heq _ =>
    have hfirst : (Node.mk head children).start = span.start := by simp [Node.start, Node.head, heq]
    have hlast : (Node.mk head children).stop = span.stop := by simp [Node.stop, Node.head, heq]
    rw [hfirst, hlast]
    exact ⟨hstart.row_le, hspan.row_le, hstop.row_le⟩

theorem NestsIn.self {n : Node} (h : n.NestsIn outer) : n.NestsIn ⟨n.start, n.stop⟩ := by
  cases h with
  | @mk _ span head children _ hspan _ heq hchildren =>
    have hends : (⟨(Node.mk head children).start, (Node.mk head children).stop⟩ : Span) = span := by
      simp [Node.start, Node.stop, Node.head, heq]
    rw [hends]
    exact .mk (.inr ⟨rfl, le_rfl⟩) hspan (.inr ⟨rfl, le_rfl⟩) heq hchildren

/-- A node begins on one of the lines of every node around it. -/
theorem NestsIn.line_mem {n m : Node} (h : n.NestsIn outer) (hm : n.Contains m) :
    n.line ≤ m.line ∧ m.line ≤ n.lastLine := by
  obtain ⟨hfirst, hspan, hlast⟩ := (NestsIn.of_contains hm h.self).rows
  exact ⟨Nat.succ_le_succ hfirst, Nat.succ_le_succ (hspan.trans hlast)⟩

end Node

/-! ## Locations -/

/-- The column in characters counts the characters that start before the byte column. -/
theorem charColumn_eq {cs line : List Char} {row : Nat}
    (h : (Text.splitOn '\n' cs)[row]? = some line) (column : Nat) :
    charColumn (byteLines (Utf8.encode cs)) row column = (Utf8.startedBefore line column : Int) := by
  have hline : (byteLines (Utf8.encode cs))[row]? = some (Utf8.encode line) := by
    unfold byteLines
    rw [Utf8.splitOn_encode, List.getElem?_map, h, Option.map_some]
  unfold charColumn
  rw [if_pos (Int.natCast_nonneg row), Int.toNat_natCast, hline]
  dsimp only
  rw [← Utf8.length_decode_take_encode]
  rfl

/-- The issue has a location inside the text, and shows the line on which that begins. -/
def Issue.IsLocatedIn (content : String) (issue : Issue) : Prop :=
  ∃ line column endLine endColumn : Nat, ∃ text : String,
    issue.location = some ⟨line, some column, some endLine, some endColumn⟩ ∧
    1 ≤ line ∧ line ≤ endLine ∧ endLine ≤ (Text.sourceLines content).length ∧
    (Text.sourceLines content)[line - 1]? = some text ∧ column ≤ text.length ∧
    (line < endLine ∨ line = endLine ∧ column ≤ endColumn) ∧
    issue.context = some (Text.trim text)

/-- The place of an offset into a text lies on one of its lines. -/
theorem ofOffset_encode_on_line {cs : List Char} {offset : Nat}
    (h : offset ≤ (Utf8.encode cs).length) :
    ∃ line, (Text.splitOn '\n' cs)[(Point.ofOffset (Utf8.encode cs) offset).row]? = some line := by
  obtain ⟨line, hline, -⟩ := Point.ofOffset_on_line h
  rw [Utf8.splitOn_encode, List.getElem?_map, Option.map_eq_some_iff] at hline
  obtain ⟨chars, hchars, -⟩ := hline
  exact ⟨chars, hchars⟩

/-- A finding whose place is on a line of the source keeps its place and shows that line. -/
theorem Finding.issue_eq {lines : List String} {row : Nat} {text : String}
    (h : lines[row]? = some text) (finding : Finding) (column endLine endColumn : Option Int) :
    finding.issue lines (some ⟨(row + 1 : Nat), column, endLine, endColumn⟩) =
      ⟨finding.message, finding.severity, some ⟨(row + 1 : Nat), column, endLine, endColumn⟩,
        some (Text.trim text), finding.explanation, finding.fix⟩ := by
  have hline : lineAt? lines ((row + 1 : Nat) : Int) = some text := (lineAt?_succ lines row).trans h
  generalize ((row + 1 : Nat) : Int) = place at hline ⊢
  unfold issue issueShowing
  simp [Option.filter, contextAt?, hline]

/-- Between nodes of a nested tree, every finding gets a place in the source. -/
theorem Finding.isLocatedIn_issue {content : String} {parsed : Parsed}
    (hlines : parsed.lines = byteLines (Utf8.encode content.toList)) {first last : Node}
    (hlast : last.IsNested (Utf8.encode content.toList) 0 (Utf8.encode content.toList).length)
    (hfirst : last.Contains first) (finding : Finding) :
    (finding.issue (Text.sourceLines content) (some (parsed.spanning first last))).IsLocatedIn
      content := by
  -- The first node starts before the last one stops, and both places lie in the source.
  obtain ⟨start, stop, hspan, hstop, hstart, hend⟩ := hlast.exists_offsets hfirst
  obtain ⟨line, hline⟩ := ofOffset_encode_on_line (hspan.trans hstop)
  obtain ⟨endLine, hendLine⟩ := ofOffset_encode_on_line hstop
  have horder := Point.ofOffset_isUpTo (Utf8.encode content.toList) hspan
  rw [← hstart] at hline horder
  rw [← hend] at hendLine horder
  have hcount : first.start.row < (Text.splitOn '\n' content.toList).length :=
    (List.getElem?_eq_some_iff.1 hline).1
  have hendCount : last.stop.row < (Text.splitOn '\n' content.toList).length :=
    (List.getElem?_eq_some_iff.1 hendLine).1
  have htext : (Text.sourceLines content)[first.start.row]? = some (String.ofList line) := by
    unfold Text.sourceLines
    rw [List.getElem?_map, hline, Option.map_some]
  have hplace : parsed.spanning first last =
      ⟨(first.start.row + 1 : Nat), some (Utf8.startedBefore line first.start.column : Int),
        some ((last.stop.row + 1 : Nat) : Int),
        some (Utf8.startedBefore endLine last.stop.column : Int)⟩ := by
    unfold Parsed.spanning
    rw [hlines, charColumn_eq hline, charColumn_eq hendLine]
    rfl
  rw [hplace, Finding.issue_eq htext]
  refine ⟨_, _, _, _, _, rfl, Nat.succ_pos _, ?_, ?_, htext, ?_, ?_, rfl⟩
  · unfold Point.IsUpTo at horder
    omega
  · unfold Text.sourceLines
    rw [List.length_map]
    exact hendCount
  · rw [String.length_ofList]
    exact Utf8.startedBefore_le_length _ _
  · rcases horder with hrow | ⟨hrow, hcolumn⟩
    · exact .inl (Nat.succ_lt_succ hrow)
    · rw [hrow, hendLine] at hline
      cases hline
      exact .inr ⟨congrArg (· + 1) hrow, Utf8.startedBefore_mono _ hcolumn⟩

end FlakeLint
