-- SUMMARY: Issues are charged to the test that they occur in.
import FlakeLint.Proofs.Passes.Buckets
import FlakeLint.Proofs.Passes.MissingPositions
import FlakeLint.Proofs.Tree.Around
import FlakeLint.Proofs.Tree.Nesting

/-!
# Issues and their tests

An issue is charged by its line alone, but its line comes from a node of the tree. Where
spans nest, that node begins on a line of every body around it. So if the bodies of
tests share no line, a problem inside one of them is charged to it and to no other.
-/

namespace FlakeLint

-- ---------------------------------------------------------------------------
-- Blocks without common lines
-- ---------------------------------------------------------------------------

/-- Some line belongs to both nodes. -/
def Node.SharesLine (first second : Node) : Prop :=
  ∃ line : Nat, (first.line ≤ line ∧ line ≤ first.lastLine) ∧
    (second.line ≤ line ∧ line ≤ second.lastLine)

namespace TestBlock

/-- No line belongs to both blocks. -/
def IsApart (first second : TestBlock) : Prop :=
  ∀ line, ¬ (first.Spans line ∧ second.Spans line)

theorem getElem?_numbered (index : Int) (bodies : List Node) (k : Nat) :
    (numbered index bodies)[k]? =
      bodies[k]?.map fun body => ⟨index + k, body.line, body.lastLine⟩ := by
  induction bodies generalizing index k with
  | nil => rfl
  | cons body bodies ih =>
    cases k with
    | zero => simp [numbered]
    | succ k =>
      rw [numbered, List.getElem?_cons_succ, List.getElem?_cons_succ, ih, Nat.cast_succ,
        Int.add_assoc, Int.add_comm 1]

theorem numbered_eq_mapIdx (bodies : List Node) :
    numbered 0 bodies = bodies.mapIdx fun k body => ⟨k, body.line, body.lastLine⟩ := by
  refine List.ext_getElem? fun k => ?_
  rw [getElem?_numbered, List.getElem?_mapIdx]
  simp only [Int.zero_add]

theorem mem_numbered {index : Int} {bodies : List Node} {block : TestBlock}
    (h : block ∈ numbered index bodies) :
    ∃ body ∈ bodies, block.startLine = body.line ∧ block.endLine = body.lastLine := by
  obtain ⟨k, hk⟩ := List.getElem?_of_mem h
  rw [getElem?_numbered, Option.map_eq_some_iff] at hk
  obtain ⟨body, hbody, rfl⟩ := hk
  exact ⟨body, List.mem_of_getElem? hbody, rfl, rfl⟩

theorem pairwise_isApart_numbered {bodies : List Node}
    (h : bodies.Pairwise fun first second => ¬ first.SharesLine second) (index : Int) :
    (numbered index bodies).Pairwise IsApart := by
  induction bodies generalizing index with
  | nil => exact .nil
  | cons body bodies ih =>
    obtain ⟨hbody, hrest⟩ := List.pairwise_cons.1 h
    refine List.pairwise_cons.2 ⟨?_, ih hrest (index + 1)⟩
    intro block hblock line ⟨⟨hlow, hhigh⟩, hline⟩
    obtain ⟨other, hother, hstart, hend⟩ := mem_numbered hblock
    rw [Spans, hstart, hend] at hline
    dsimp only at hlow hhigh
    exact hbody other hother ⟨line.toNat, by omega, by omega⟩

/-- Of blocks without common lines, a line is charged to the one that it lies in. -/
theorem isChargedTo_of_spans {blocks : List TestBlock} (h : blocks.Pairwise IsApart)
    {block : TestBlock} (hblock : block ∈ blocks) {line : Int} (hline : block.Spans line) :
    IsChargedTo blocks (some line) block.index := by
  obtain ⟨before, after, rfl⟩ := List.append_of_mem hblock
  refine ⟨line, block, rfl, ⟨before, after, rfl, hline, ?_⟩, rfl⟩
  intro earlier hearlier hspans
  have hapart := (List.pairwise_append.1 h).2.2 earlier hearlier block List.mem_cons_self
  exact hapart line ⟨hspans, hline⟩

/-- An issue whose line is charged to an index is in the bucket of that index and in no other. -/
theorem mem_bucket_iff_of_isChargedTo {blocks : List TestBlock} {issues : List Issue} {issue : Issue}
    (hissue : issue ∈ issues) {index : Int} (h : IsChargedTo blocks issue.line index) (other : Int) :
    issue ∈ ((buckets blocks issues).get? other).getD [] ↔ other = index := by
  rw [buckets, getD_get?_bucketsBy, List.mem_filter, and_iff_right hissue,
    indexFor?_eq_some_iff.2 h, beq_iff_eq, Option.some_inj, eq_comm]

end TestBlock

-- ---------------------------------------------------------------------------
-- The lines of problems
-- ---------------------------------------------------------------------------

/-- On a tree whose spans nest in the source, an issue is on the line on which its problem begins. -/
theorem Problem.line_issue {file : TestFile} {outer : Span} (h : file.parsed.root.NestsIn outer)
    (houter : outer.stop.row < file.lines.length) {problem : Problem}
    (hlast : file.parsed.root.Contains problem.last) (hfirst : problem.last.Contains problem.first) :
    (problem.issue file).line = some (problem.first.line : Int) := by
  have hbegin := Node.NestsIn.of_contains (hlast.trans hfirst) h
  have hend := Node.NestsIn.of_contains hlast h
  obtain ⟨-, hspan, hstop⟩ := hbegin.rows
  have hrow : problem.first.start.row < file.lines.length := by omega
  rw [problem.issue_eq file hbegin.isPositioned hend.isPositioned]
  exact congrArg Issue.line (Finding.issue_eq (List.getElem?_eq_getElem hrow) problem.finding _ _ _)

-- ---------------------------------------------------------------------------
-- Problems in tests
-- ---------------------------------------------------------------------------

/-- Where spans nest and the bodies of tests share no line, so that none lies in another, the blocks of
the tests are numbered in source order and have no line in common. The analysis stops at nothing but a
delay that is too long to be written, and an issue about a node inside the body of a test is put in the
bucket of that test and in no other. -/
theorem Checker.analyze_charges_own_test (checker : Checker) (path content : String)
    {parsed : Parsed} {outer : Span} (hnested : parsed.root.NestsIn outer)
    (houter : outer.stop.row < (Text.sourceLines content).length)
    (hapart : (TestBlock.bodies checker.testNames parsed.cursor).Pairwise
      fun first second => ¬ first.SharesLine second) :
    let file := TestFile.ofContent path content parsed
    let bodies := TestBlock.bodies checker.testNames parsed.cursor
    let blocks : List TestBlock := bodies.mapIdx fun k body => ⟨k, body.line, body.lastLine⟩
    checker.blocks file = .ok blocks ∧ blocks.Pairwise TestBlock.IsApart ∧
    (checker.isStopped file = false → ∃ output, checker.analyze file = .ok output) ∧
    ∀ output, checker.analyze file = .ok output →
      output.issues = (checker.problems file).map (Problem.issue file) ∧
      ∀ (k : Nat) (body : Node), bodies[k]? = some body →
        ∀ problem ∈ checker.problems file, body.Contains problem.last →
          ∀ index : Int, problem.issue file ∈
            ((TestBlock.buckets blocks output.issues).get? index).getD [] ↔ index = k := by
  intro file bodies blocks
  have hpositioned : file.parsed.root.isPositioned := hnested.isPositioned
  have hblocks : TestBlock.numbered 0 bodies = blocks := TestBlock.numbered_eq_mapIdx bodies
  have hpairwise : blocks.Pairwise TestBlock.IsApart :=
    hblocks ▸ TestBlock.pairwise_isApart_numbered hapart 0
  refine ⟨hblocks ▸ TestBlock.find_eq_ok hpositioned _, hpairwise, ?_, ?_⟩
  · intro hwritable
    obtain ⟨output, houtput, -⟩ :=
      checker.rated_ok file.path (checker.found file) (checker.blocksFound file)
    rw [Checker.analyze_eq hpositioned, hwritable]
    exact ⟨output, houtput⟩
  · intro output houtput
    have hissues := Checker.issues_of_analyze houtput
    refine ⟨hissues, ?_⟩
    intro k body hbody problem hproblem hinside index
    obtain ⟨hlast, hfirst⟩ := Checker.contains_of_mem_problems hproblem
    have hline := Problem.line_issue hnested houter hlast hfirst
    -- The node that the issue begins at lies in the body, so its line is one of the body.
    have hbelow := TestBlock.contains_of_mem_bodies (List.mem_of_getElem? hbody)
    have hlines := (Node.NestsIn.of_contains hbelow hnested).line_mem (hinside.trans hfirst)
    have hblock : ⟨k, body.line, body.lastLine⟩ ∈ blocks := by
      refine List.mem_of_getElem? (?_ : blocks[k]? = _)
      rw [List.getElem?_mapIdx, hbody, Option.map_some]
    have hcharged := TestBlock.isChargedTo_of_spans hpairwise hblock
      ⟨Int.ofNat_le.2 hlines.1, Int.ofNat_le.2 hlines.2⟩
    rw [← hline] at hcharged
    rw [hissues]
    exact TestBlock.mem_bucket_iff_of_isChargedTo (List.mem_map_of_mem hproblem) hcharged index

namespace Sample

/-- The outline of a test `it('a', () => { … })` with a name of one letter. -/
def test (start stop : Nat) (statements : List Outline) : Outline :=
  piece .call none start stop [
    piece .identifier (some .function) start (start + 2) [],
    piece .arguments (some .arguments) (start + 2) stop [
      piece .string none (start + 3) (start + 6) [],
      piece .arrowFunction none (start + 8) (stop - 1) [
        piece .block (some .body) (start + 14) (stop - 1) statements]]]

def twoTestsText : String :=
  "it('a', () => \x7b\n  cy.wait(5000);\n\x7d);\nit('b', () => \x7b\n  cy.get('b').click();\n\x7d);"

/-- A fixed wait in one test and an action that nothing follows in another. -/
def twoTestsOutline : Outline :=
  piece (.other "program") none 0 79 [
    test 0 35 [
      methodCall none 18 21 25 31 (piece .identifier (some .object) 18 20 [])
        [piece .number none 26 30 []]],
    test 37 78 [
      methodCall none 55 67 72 74
        (methodCall (some .object) 55 58 61 66 (piece .identifier (some .object) 55 57 [])
          [piece .string none 62 65 []]) []]]

def twoTests : Parsed :=
  .ofOutline twoTestsText defaultGrammar twoTestsOutline

end Sample

/-- The action without a check is charged to the second test, the one that it stands in. -/
theorem Checker.analyze_charges_own_test_action :
    let file := TestFile.ofContent "a.cy.js" Sample.twoTestsText Sample.twoTests
    ∃ blocks output, Checker.asyncReliability.blocks file = .ok blocks ∧
      Checker.asyncReliability.analyze file = .ok output ∧
      ∃ issue ∈ output.issues, issue.line = some 5 ∧
        ∀ index : Int, issue ∈ ((TestBlock.buckets blocks output.issues).get? index).getD [] ↔
          index = 1 := by
  intro file
  have hnested : Sample.twoTests.root.NestsIn ⟨.ofOffset _ 0, .ofOffset _ 79⟩ :=
    (Node.isNested_place (by decide)).nestsIn
  have hrows : (Point.ofOffset (Utf8.encode Sample.twoTestsText.toList) 79).row <
      (Text.sourceLines Sample.twoTestsText).length := by decide +kernel
  have hapart : (TestBlock.bodies ["it"] Sample.twoTests.cursor).Pairwise
      fun first second => ¬ first.SharesLine second := by
    have hordered : (TestBlock.bodies ["it"] Sample.twoTests.cursor).Pairwise
        fun first second => first.lastLine < second.line := by decide +kernel
    refine hordered.imp ?_
    rintro first second hbefore ⟨line, ⟨-, hfirst⟩, hsecond, -⟩
    omega
  obtain ⟨hblocks, -, hends, hanalyze⟩ :=
    Checker.analyze_charges_own_test .asyncReliability "a.cy.js" Sample.twoTestsText hnested hrows
      hapart
  obtain ⟨output, houtput⟩ := hends (by decide +kernel)
  obtain ⟨hissues, hcharged⟩ := hanalyze output houtput
  have hfound : ∃ problem ∈ Checker.asyncReliability.problems file,
      (problem.issue file).line = some 5 ∧
      ∃ body ∈ (TestBlock.bodies ["it"] Sample.twoTests.cursor)[1]?,
        body.Contains problem.last := by decide +kernel
  obtain ⟨problem, hproblem, hline, body, hbody, hinside⟩ := hfound
  have hissue : problem.issue file ∈ output.issues := by
    rw [hissues]
    exact List.mem_map_of_mem hproblem
  exact ⟨_, output, hblocks, houtput, problem.issue file, hissue, hline,
    hcharged 1 body hbody problem hproblem hinside⟩

end FlakeLint
