-- SUMMARY: Comments in a tree change nothing: a source is analysed alike with and without them.
import FlakeLint.Proofs.Passes.Redrawn
import FlakeLint.Proofs.Tree.Outline

/-!
# Comments

Comments may stand between any two tokens. Whichever of them are taken out of the
tree, everything else keeps its place, and the analysis ends as it did before.
-/

namespace FlakeLint

/-! ## Trees without comments -/

namespace Node

mutual
/-- The tree without those bare comments below its root that are chosen. A place is given by the
numbers of the children that lead to it, the innermost first. -/
def withoutComments (chosen : List Nat → Bool) (place : List Nat) : Node → Node
  | .mk head children => .mk head (withoutCommentsAmong chosen place 0 children)

/-- What is left of the children of a place, numbered from `number` on. -/
def withoutCommentsAmong (chosen : List Nat → Bool) (place : List Nat) (number : Nat) :
    List Node → List Node
  | [] => []
  | n :: ns =>
    if n.isBareComment && chosen (number :: place) then
      withoutCommentsAmong chosen place (number + 1) ns
    else
      n.withoutComments chosen (number :: place) ::
        withoutCommentsAmong chosen place (number + 1) ns
end

variable {R : Span → Span → Prop}

mutual
/-- A tree without some of its comments is the tree redrawn where it stood. -/
theorem redrawn_withoutComments (hR : ∀ span, R span span) (chosen : List Nat → Bool)
    (place : List Nat) {n : Node} (h : n.isPositioned) :
    n.Redrawn R (n.withoutComments chosen place) := by
  obtain ⟨⟨kind, named, missing, hasError, role, text, span?⟩, children⟩ := n
  obtain ⟨hspan, hchildren⟩ := isPositioned_iff.1 h
  obtain ⟨span, rfl⟩ := Option.isSome_iff_exists.1 hspan
  rw [withoutComments]
  exact .mk rfl (hR span) (redrawnAll_withoutCommentsAmong hR chosen place 0 hchildren)

theorem redrawnAll_withoutCommentsAmong (hR : ∀ span, R span span) (chosen : List Nat → Bool)
    (place : List Nat) (number : Nat) {ns : List Node} (h : ∀ n ∈ ns, n.isPositioned) :
    RedrawnAll R ns (withoutCommentsAmong chosen place number ns) := by
  match ns with
  | [] => exact .nil
  | n :: ns =>
    rw [List.forall_mem_cons] at h
    have hrest := redrawnAll_withoutCommentsAmong hR chosen place (number + 1) h.2
    rw [withoutCommentsAmong]
    split
    · next hchosen => exact .drop (Bool.and_eq_true_iff.1 hchosen).1 h.1 hrest
    · exact .keep (redrawn_withoutComments hR chosen _ h.1) hrest
end

end Node

/-! ## Analysing them -/

namespace TestFile

/-- The same source and the same tree, without the chosen comments in the tree. -/
def withoutComments (file : TestFile) (chosen : List Nat → Bool) : TestFile :=
  { file with parsed :=
    { file.parsed with root := file.parsed.root.withoutComments chosen [] } }

theorem redrawn_withoutComments {file : TestFile} (h : file.parsed.root.isPositioned)
    (chosen : List Nat → Bool) : file.Redrawn 0 (file.withoutComments chosen) where
  path := rfl
  root := Node.redrawn_withoutComments (fun _ => ⟨rfl, rfl, rfl, rfl, rfl, rfl⟩) chosen [] h

end TestFile

/-- Taking any comments out of the tree of a source changes neither what a checker says about the
source nor the tests that it finds there. -/
theorem Checker.analyze_withoutComments {file : TestFile} (h : file.parsed.root.isPositioned)
    (chosen : List Nat → Bool) (checker : Checker) :
    checker.analyze (file.withoutComments chosen) = checker.analyze file ∧
      checker.blocks (file.withoutComments chosen) = checker.blocks file := by
  have hredrawn := TestFile.redrawn_withoutComments h chosen
  rw [analyze_redrawn hredrawn, blocks_redrawn hredrawn, Output.down_zero, TestBlock.down_zero,
    List.map_id_fun, Except.map_id, Except.map_id]
  exact ⟨rfl, rfl⟩

namespace Sample

/-- A wait with a comment before its argument. -/
def commented : TestFile :=
  .ofOutline "a.cy.js" "cy.wait(/* a */ 1000)" defaultGrammar <|
    piece (.other "program") none 0 21 [
      methodCall none 0 3 7 21 (piece .identifier (some .object) 0 2 [])
        [piece .comment none 8 15 [], piece .number none 16 20 []]]

end Sample

/-- The one issue of a fixed wait is found with and without the comment. -/
theorem Checker.analyze_withoutComments_fixed_wait :
    let file := Sample.commented
    let other := file.withoutComments fun _ => true
    file.parsed.root.isPositioned ∧
    other.parsed.root.size < file.parsed.root.size ∧
    ((asyncReliability.analyze file).toOption.map fun output => output.issues.map Issue.line) =
      some [some 1] ∧
    asyncReliability.analyze other = asyncReliability.analyze file ∧
    asyncReliability.blocks other = asyncReliability.blocks file := by
  have hpositioned : Sample.commented.parsed.root.isPositioned := by decide +kernel
  exact ⟨hpositioned, by decide +kernel, by decide +kernel,
    analyze_withoutComments hpositioned (fun _ => true) asyncReliability⟩

end FlakeLint
