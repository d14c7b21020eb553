-- SUMMARY: Outlines in which every node has a range, and what parsing makes of them.
import FlakeLint.Proofs.Tree.Position
import FlakeLint.TestFile

/-!
# Outlines with ranges

The parsers report a tree by ranges of byte offsets. Where every node of it has a
range, every node of the placed tree has a position, and parsing either yields
such a tree or fails as parsing does. With the tree comes the table of lines of the
bytes it was made from.
-/

namespace FlakeLint

namespace Outline

mutual
/-- Does the range of every node of an outline satisfy `p`? -/
def everywhere (p : Option (Nat × Nat) → Bool) : Outline → Bool
  | .mk _ _ _ _ _ range children => p range && everywhereIn p children

def everywhereIn (p : Option (Nat × Nat) → Bool) : List Outline → Bool
  | [] => true
  | outline :: outlines => outline.everywhere p && everywhereIn p outlines
end

def isPositioned (outline : Outline) : Bool :=
  outline.everywhere Option.isSome

mutual
theorem isPositioned_place (bytes : ByteArray) (points : Array Point) (outline : Outline) :
    (outline.place bytes points).isPositioned = outline.isPositioned := by
  obtain ⟨kind, named, missing, hasError, role, range, children⟩ := outline
  have hchildren := everywhereIn_placeAll bytes points children
  unfold Node.isPositioned isPositioned everywhere place Node.everywhere
  rw [hchildren]
  dsimp only
  rw [Option.isSome_map]

theorem everywhereIn_placeAll (bytes : ByteArray) (points : Array Point)
    (outlines : List Outline) :
    Node.everywhereIn (fun head => head.span.isSome) (placeAll bytes points outlines) =
      everywhereIn Option.isSome outlines := by
  match outlines with
  | [] => rfl
  | outline :: outlines =>
    have hfirst := isPositioned_place bytes points outline
    have hrest := everywhereIn_placeAll bytes points outlines
    unfold Node.isPositioned isPositioned at hfirst
    rw [placeAll, Node.everywhereIn, everywhereIn, hfirst, hrest]
end

end Outline

namespace Parsers

def isPositioned (parsers : Parsers) : Bool :=
  parsers.outlines.all fun entry => entry.2.isPositioned

variable {parsers : Parsers}

/-- A root comes from an outline that the parsers made. -/
theorem root_cases (parsers : Parsers) (path grammar : String) (bytes : List UInt8) :
    (∃ entry ∈ parsers.outlines,
      parsers.root path grammar bytes = .ok (entry.2.place ⟨bytes.toArray⟩ (pointsOf bytes))) ∨
    ∃ failure, parsers.root path grammar bytes = .error (.parse failure) := by
  unfold root
  split
  · next outline _ hlookup =>
    obtain ⟨before, after, hentries, -⟩ := List.lookup_eq_some_iff.1 hlookup
    have hentry : (grammar, outline) ∈ parsers.outlines := by simp [hentries]
    exact .inl ⟨_, hentry, rfl⟩
  · exact .inr ⟨_, rfl⟩

/-- A tree without an error is taken as it is; one with an error fails with the line of it. -/
theorem checked_eq {root : Node} (h : root.isPositioned) (path grammar : String)
    (bytes : List UInt8) (retried : Bool) :
    checked path grammar bytes retried root =
      if root.head.hasError then
        .error (.parse ⟨path, root.firstError?.map Node.line, .malformed grammar⟩)
      else .ok ⟨⟨root, grammar, byteLines bytes⟩, retried⟩ := by
  have hline : root.firstError?.mapM Node.startLine = .ok (root.firstError?.map Node.line) := by
    cases herror : root.firstError? with
    | none => rfl
    | some found =>
      have hfound := Node.isPositioned_of_contains (Node.contains_of_firstError? herror) h
      simp only [Option.mapM_some, Node.startLine_eq_ok hfound]
      rfl
  unfold checked
  rw [hline]
  cases root.head.hasError <;> rfl

theorem checked_cases {root : Node} (h : root.isPositioned) (path grammar : String)
    (bytes : List UInt8) (retried : Bool) :
    checked path grammar bytes retried root =
      .ok ⟨⟨root, grammar, byteLines bytes⟩, retried⟩ ∨
    ∃ failure, checked path grammar bytes retried root = .error (.parse failure) := by
  rw [checked_eq h]
  cases root.head.hasError with
  | true => exact .inr ⟨_, rfl⟩
  | false => exact .inl rfl

/-- Parsing with positions yields a tree with positions or fails as parsing does. -/
theorem parse_cases (h : parsers.isPositioned) (path content : String) (asked : Option String) :
    (∃ result, parsers.parse path content asked = .ok result ∧
      result.parsed.root.isPositioned) ∨
    ∃ failure, parsers.parse path content asked = .error (.parse failure) := by
  have hplaced : ∀ entry ∈ parsers.outlines, ∀ bytes points,
      (entry.2.place bytes points).isPositioned := by
    intro entry hentry bytes points
    rw [Outline.isPositioned_place]
    exact List.all_eq_true.1 h entry hentry
  have hchecked : ∀ {root : Node}, root.isPositioned → ∀ grammar bytes retried,
      (∃ result, checked path grammar bytes retried root = .ok result ∧
        result.parsed.root.isPositioned) ∨
      ∃ failure, checked path grammar bytes retried root = .error (.parse failure) := by
    intro root hroot grammar bytes retried
    rcases checked_cases hroot path grammar bytes retried with hok | hfailed
    · exact .inl ⟨_, hok, hroot⟩
    · exact .inr hfailed
  unfold parse
  extract_lets grammar bytes
  rcases parsers.root_cases path grammar bytes with ⟨entry, hentry, hroot⟩ | ⟨failure, hroot⟩
  · rw [hroot]
    simp only [bind, Except.bind]
    split
    -- Whichever of the two trees is kept, it comes from an outline of the parsers.
    · next other _ _ =>
      rcases parsers.root_cases path other bytes with
        ⟨second, hsecond, hother⟩ | ⟨failure, hother⟩
      · rw [hother]
        dsimp only
        split
        · exact hchecked (hplaced entry hentry _ _) _ _ _
        · exact hchecked (hplaced second hsecond _ _) _ _ _
      · rw [hother]
        exact .inr ⟨failure, rfl⟩
    · exact hchecked (hplaced entry hentry _ _) _ _ _
  · rw [hroot]
    exact .inr ⟨failure, rfl⟩

theorem lines_of_checked {path grammar : String} {bytes : List UInt8} {retried : Bool}
    {root : Node} {result : ParseResult}
    (h : checked path grammar bytes retried root = .ok result) :
    result.parsed.lines = byteLines bytes := by
  unfold checked at h
  cases hline : root.firstError?.mapM Node.startLine with
  | error fault =>
    rw [hline] at h
    split at h <;> cases h
    rfl
  | ok line =>
    rw [hline] at h
    split at h <;> cases h
    rfl

/-- A parsed source carries the lines of its bytes. -/
theorem lines_of_parse {path content : String} {asked : Option String} {result : ParseResult}
    (h : parsers.parse path content asked = .ok result) :
    result.parsed.lines = byteLines (Utf8.encode content.toList) := by
  unfold parse at h
  extract_lets grammar bytes at h
  cases hroot : parsers.root path grammar bytes with
  | error fault =>
    rw [hroot] at h
    cases h
  | ok root =>
    rw [hroot] at h
    simp only [bind, Except.bind] at h
    split at h
    · split at h
      · cases h
      · split at h
        · exact lines_of_checked h
        · exact lines_of_checked h
    · exact lines_of_checked h

end Parsers

/-! ## Sources with an outline -/

/-- The tree that an outline gives in a source. -/
def Node.ofOutline (content : String) (outline : Outline) : Node :=
  let bytes := Utf8.encode content.toList
  outline.place ⟨bytes.toArray⟩ (pointsOf bytes)

/-- A source with the tree that an outline of it gives. -/
def Parsed.ofOutline (content grammar : String) (outline : Outline) : Parsed :=
  let bytes := Utf8.encode content.toList
  ⟨outline.place ⟨bytes.toArray⟩ (pointsOf bytes), grammar, byteLines bytes⟩

/-- A file that is read from a source and an outline of it. -/
def TestFile.ofOutline (path content grammar : String) (outline : Outline) : TestFile :=
  .ofContent path content (.ofOutline content grammar outline)

namespace Sample

def piece (kind : Kind) (role : Option Role) (start stop : Nat) (children : List Outline) :
    Outline :=
  .mk kind true false false role (some (start, stop)) children

/-- The call of a method on an object, with the offsets of the call, the name of the method, and the
arguments behind it. -/
def methodCall (role : Option Role) (start name arguments stop : Nat) (object : Outline)
    (passed : List Outline) : Outline :=
  piece .call role start stop [
    piece .member (some .function) start arguments [
      object, piece .property (some .property) name arguments []],
    piece .arguments (some .arguments) arguments stop passed]

/-- A wait whose argument stands on a line of its own. -/
def source (argument : String) : String :=
  "cy.wait(\n" ++ argument ++ ")"

/-- The outline of `source` for a number that takes up so many bytes. -/
def outline (bytes : Nat) : Outline :=
  piece (.other "program") none 0 (10 + bytes) [
    methodCall none 0 3 7 (10 + bytes) (piece .identifier (some .object) 0 2 [])
      [piece .number none 9 (9 + bytes) []]]

/-- A parser that reports this outline. -/
def parsers (argument : String) : Parsers :=
  ⟨[defaultGrammar], [(defaultGrammar, outline (Utf8.encode argument.toList).length)]⟩

end Sample

end FlakeLint
