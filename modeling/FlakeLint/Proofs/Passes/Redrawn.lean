-- SUMMARY: A redrawn source has the issues, tests and ratings of the first one, further down.
import FlakeLint.Proofs.Passes.Buckets
import FlakeLint.Proofs.Passes.Judgements

/-!
# Analysing a redrawn source

If the second source shows, so many lines further down, what the first one shows
where its nodes stand, then what is found in the second is what is found in the
first, moved down by as many lines.
-/

namespace FlakeLint

-- ---------------------------------------------------------------------------
-- Moving results down
-- ---------------------------------------------------------------------------

def Location.down (rows : Nat) (location : Location) : Location :=
  { location with
    line := location.line + rows
    endLine := location.endLine.map (· + (rows : Int)) }

def Issue.down (rows : Nat) (issue : Issue) : Issue :=
  { issue with location := issue.location.map (Location.down rows) }

def Output.down (rows : Nat) (output : Output) : Output :=
  { output with issues := output.issues.map (Issue.down rows) }

def TestBlock.down (rows : Nat) (block : TestBlock) : TestBlock :=
  { block with startLine := block.startLine + rows, endLine := block.endLine + rows }

theorem Location.down_zero : Location.down 0 = id := by
  funext ⟨line, column, endLine, endColumn⟩
  cases endLine <;> simp [down]

theorem Issue.down_zero : Issue.down 0 = id := by
  funext issue
  simp [down, Location.down_zero]

theorem Output.down_zero : Output.down 0 = id := by
  funext output
  simp [down, Issue.down_zero]

theorem TestBlock.down_zero : TestBlock.down 0 = id := by
  funext block
  simp [down]

-- ---------------------------------------------------------------------------
-- Two sources
-- ---------------------------------------------------------------------------

/-- Around the second span, `other` shows what `file` shows around the first one, so many rows further
up. -/
structure TestFile.Shows (rows : Nat) (file other : TestFile) (span span' : Span) : Prop where
  start : span'.start.row = span.start.row + rows
  stop : span'.stop.row = span.stop.row + rows
  startColumn : charColumn other.parsed.lines span'.start.row span'.start.column =
    charColumn file.parsed.lines span.start.row span.start.column
  stopColumn : charColumn other.parsed.lines span'.stop.row span'.stop.column =
    charColumn file.parsed.lines span.stop.row span.stop.column
  text : other.lines[span'.start.row]? = file.lines[span.start.row]?
  setup : (Setup.window other.lines (span'.start.row + 1 : Nat)).any Setup.isMarked =
    (Setup.window file.lines (span.start.row + 1 : Nat)).any Setup.isMarked

/-- The same source with its tree redrawn so many rows further down. -/
structure TestFile.Redrawn (rows : Nat) (file other : TestFile) : Prop where
  path : other.path = file.path
  root : file.parsed.root.Redrawn (Shows rows file other) other.parsed.root

variable {rows : Nat} {file other : TestFile}

theorem TestFile.Redrawn.cursor (h : file.Redrawn rows other) :
    file.cursor.Redrawn (Shows rows file other) other.cursor :=
  ⟨h.root, .nil⟩

-- ---------------------------------------------------------------------------
-- Lines and issues
-- ---------------------------------------------------------------------------

section

variable {n n' first first' last last' : Node}

theorem Node.Redrawn.line (h : n.Redrawn (file.Shows rows other) n') : n'.line = n.line + rows := by
  have hstart : n'.start.row = n.start.row + rows := h.related.start
  unfold Node.line
  omega

theorem Node.Redrawn.lastLine (h : n.Redrawn (file.Shows rows other) n') :
    n'.lastLine = n.lastLine + rows := by
  have hstop : n'.stop.row = n.stop.row + rows := h.related.stop
  unfold Node.lastLine
  omega

theorem lineAt?_redrawn (h : n.Redrawn (file.Shows rows other) n') :
    lineAt? other.lines n'.line = lineAt? file.lines n.line := by
  unfold Node.line
  rw [lineAt?_succ, lineAt?_succ]
  exact h.related.text

theorem lineText_redrawn (h : n.Redrawn (file.Shows rows other) n') :
    lineText other.lines n'.line = lineText file.lines n.line := by
  unfold lineText
  rw [lineAt?_redrawn h]

theorem spanning_redrawn (hfirst : first.Redrawn (file.Shows rows other) first')
    (hlast : last.Redrawn (file.Shows rows other) last') :
    other.parsed.spanning first' last' = (file.parsed.spanning first last).down rows := by
  have hstart : charColumn other.parsed.lines first'.start.row first'.start.column =
      charColumn file.parsed.lines first.start.row first.start.column := hfirst.related.startColumn
  have hstop : charColumn other.parsed.lines last'.stop.row last'.stop.column =
      charColumn file.parsed.lines last.stop.row last.stop.column := hlast.related.stopColumn
  unfold Parsed.spanning Location.down
  rw [hstart, hstop, hfirst.line, hlast.lastLine]
  simp

/-- A finding moves down with its place where the same text is shown. -/
theorem Finding.issue_down {lines lines' : List String} {place : Location}
    (h : lineAt? lines' (place.line + rows) = lineAt? lines place.line) (finding : Finding) :
    finding.issue lines' (some (place.down rows)) = (finding.issue lines (some place)).down rows := by
  have htext : lineAt? lines' (place.down rows).line = lineAt? lines place.line := h
  unfold issue issueShowing contextAt? Issue.down
  by_cases hline : (lineAt? lines place.line).isSome
  · simp [Option.filter, htext, hline]
  · simp [Option.filter, htext, hline]

theorem Finding.issue_redrawn (hfirst : first.Redrawn (file.Shows rows other) first')
    (hlast : last.Redrawn (file.Shows rows other) last') (finding : Finding) :
    finding.issue other.lines (some (other.parsed.spanning first' last')) =
      (finding.issue file.lines (some (file.parsed.spanning first last))).down rows := by
  have htext := lineAt?_redrawn hfirst
  rw [hfirst.line, Int.natCast_add] at htext
  rw [spanning_redrawn hfirst hlast]
  exact issue_down htext finding

theorem TestFile.issueAt_redrawn (h : n.Redrawn (file.Shows rows other) n') (finding : Finding) :
    other.issueAt finding n' = (file.issueAt finding n).down rows := by
  unfold issueAt
  rw [Parsed.place?_eq_some h.isPositioned.1, Parsed.place?_eq_some h.isPositioned.2]
  exact Finding.issue_redrawn h h finding

end

-- ---------------------------------------------------------------------------
-- What a file is consulted for
-- ---------------------------------------------------------------------------

section

variable {c c' call call' : Cursor}

theorem UnverifiedAction.isFollowedUp_redrawn (h : c.Redrawn (file.Shows rows other) c')
    (line : Int) :
    isFollowedUp (Assertion.linesUnder c') (line + rows) =
      isFollowedUp (Assertion.linesUnder c) line := by
  rw [isFollowedUp_linesUnder, isFollowedUp_linesUnder]
  refine any_eq_of_forall₂ h.calls fun _ _ hcall => ?_
  refine any_eq_of_forall₂ (Assertion.sitesOf_redrawn hcall.node) fun _ _ hsite => ?_
  rw [hsite.line, Bool.eq_iff_iff]
  simp only [Bool.and_eq_true, decide_eq_true_eq]
  omega

theorem Assertion.isRelatedBelow_redrawn (h : c.Redrawn (file.Shows rows other) c')
    (selector : String) (line : Int) :
    isRelatedBelow c' selector (line + rows) = isRelatedBelow c selector line := by
  refine any_eq_of_forall₂ h.calls fun _ _ hcall => ?_
  rw [hcall.node.line, isRelated_redrawn hcall]
  congr 1
  rw [Bool.eq_iff_iff]
  simp only [Bool.and_eq_true, decide_eq_true_eq]
  omega

namespace Wait

theorem aliasLines_redrawn (h : c.Redrawn (file.Shows rows other) c') (object : String) :
    aliasLines c' object = (aliasLines c object).map (· + rows) := by
  unfold aliasLines
  rw [List.map_map]
  refine map_eq_of_forall₂ (forall₂_filter h.calls fun _ _ hcall => ?_) fun _ _ hcall => ?_
  · rw [alias?_redrawn hcall.node]
  · exact hcall.node.line

theorem inRun_add (line : Int) (run : Nat) (lines : List Nat) :
    inRun (line + rows) run (lines.map (· + rows)) = inRun line run lines := by
  have hbeq (m : Nat) : (line + rows == ((m + rows : Nat) : Int)) = (line == (m : Int)) := by
    rw [Bool.eq_iff_iff, beq_iff_eq, beq_iff_eq]
    omega
  fun_induction inRun line run lines with
  | case1 run previous current rest run' ih =>
    simp only [List.map_cons] at ih ⊢
    rw [inRun]
    simp only [hbeq, Nat.add_sub_add_right]
    rw [← ih]
  | case2 lines run hshort =>
    match lines with
    | [] => rfl
    | [_] => rfl
    | previous :: current :: rest => exact (hshort previous current rest rfl).elim

theorem inRun_redrawn (h : c.Redrawn (file.Shows rows other) c') (object : String) (line : Int) :
    inRun (line + rows) 1 (aliasLines c' object).mergeSort =
      inRun line 1 (aliasLines c object).mergeSort := by
  rw [aliasLines_redrawn h, ← List.map_mergeSort (r := fun a b => decide (a ≤ b)), inRun_add]
  intro a _ b _
  simp

end Wait

-- ---------------------------------------------------------------------------
-- Waits
-- ---------------------------------------------------------------------------

namespace Checker

theorem reportsDelay_redrawn (h : call.Redrawn (file.Shows rows other) call') (delay : Number)
    (checker : Checker) :
    checker.reportsDelay other call' delay = checker.reportsDelay file call delay := by
  cases checker with
  | asyncReliability =>
    unfold reportsDelay
    dsimp only
    rw [lineText_redrawn h.node, Retry.covers_redrawn h]
  | pageTimeouts =>
    unfold reportsDelay
    dsimp only
    rw [lineText_redrawn h.node]

theorem isUnwritable_redrawn (h : call.Redrawn (file.Shows rows other) call')
    (checker : Checker) : isUnwritable other checker call' = isUnwritable file checker call := by
  unfold isUnwritable
  rw [delay?_redrawn h.node]
  simp only [reportsDelay_redrawn h]

theorem delayIssues_redrawn (h : call.Redrawn (file.Shows rows other) call') (delay : Number)
    (checker : Checker) :
    delayIssues other call' delay checker =
      (delayIssues file call delay checker).map (Issue.down rows) := by
  unfold delayIssues
  rw [reportsDelay_redrawn h, lineText_redrawn h.node, TestFile.issueAt_redrawn h.node]
  split <;> rfl

end Checker

theorem AliasWait.findings_redrawn (h : file.Redrawn rows other)
    (hcall : call.Redrawn (file.Shows rows other) call') (declared : List String)
    (waited : String) :
    findings other declared call' waited = findings file declared call waited := by
  unfold findings
  rw [hcall.node.line, Int.natCast_add, Wait.inRun_redrawn h.cursor]

namespace Checker

theorem waitsAt_redrawn (h : file.Redrawn rows other)
    (hcall : call.Redrawn (file.Shows rows other) call') (declared : List String) :
    waitsAt other declared call' = (waitsAt file declared call).map (Issue.down rows) := by
  unfold waitsAt
  rw [delay?_redrawn hcall.node, Wait.alias?_redrawn hcall.node]
  cases asyncReliability.delay? call.node with
  | some delay => exact delayIssues_redrawn hcall delay asyncReliability
  | none =>
    cases Wait.alias? libraryObject call.node with
    | none => rfl
    | some waited =>
      simp [AliasWait.findings_redrawn h hcall, TestFile.issueAt_redrawn hcall.node]

theorem timeoutsAt_redrawn (hcall : call.Redrawn (file.Shows rows other) call') :
    timeoutsAt other call' = (timeoutsAt file call).map (Issue.down rows) := by
  unfold timeoutsAt
  rw [delay?_redrawn hcall.node]
  cases pageTimeouts.delay? call.node with
  | none => rfl
  | some delay => exact delayIssues_redrawn hcall delay pageTimeouts

theorem isStopped_redrawn (h : file.Redrawn rows other) (checker : Checker) :
    isStopped other checker = isStopped file checker :=
  any_eq_of_forall₂ h.cursor.calls fun _ _ hcall => isUnwritable_redrawn hcall checker

theorem waitsFound_redrawn (h : file.Redrawn rows other) :
    waitsFound other = (waitsFound file).map (Issue.down rows) := by
  unfold waitsFound
  rw [Wait.declaredAliases_redrawn h.cursor, List.map_flatMap]
  exact flatMap_eq_of_forall₂ h.cursor.calls fun _ _ hcall => waitsAt_redrawn h hcall _

end Checker

-- ---------------------------------------------------------------------------
-- Actions and chains
-- ---------------------------------------------------------------------------

namespace UnverifiedAction

theorem isSettled_redrawn (h : file.Redrawn rows other)
    (hcall : call.Redrawn (file.Shows rows other) call') (command : String) :
    isSettled other (.ofCommand other.parsed call' command) =
      isSettled file (.ofCommand file.parsed call command) := by
  have hsetup : (Setup.window other.lines call'.node.line).any Setup.isMarked =
      (Setup.window file.lines call.node.line).any Setup.isMarked := hcall.node.related.setup
  have hfollowed : isFollowedUp (Assertion.linesUnder other.cursor) call'.node.line =
      isFollowedUp (Assertion.linesUnder file.cursor) call.node.line := by
    rw [hcall.node.line, Int.natCast_add]
    exact isFollowedUp_redrawn h.cursor _
  have hrelated (selector : String) :
      Assertion.isRelatedBelow other.cursor selector call'.node.line =
        Assertion.isRelatedBelow file.cursor selector call.node.line := by
    rw [hcall.node.line, Int.natCast_add]
    exact Assertion.isRelatedBelow_redrawn h.cursor selector _
  unfold isSettled ActionSite.ofCommand Setup.excuses
  dsimp only
  rw [Assertion.isChained_redrawn hcall, hcall.node.chainStart.1.getSelector?, hsetup, hfollowed]
  simp only [hrelated]

theorem issueOf?_redrawn (h : file.Redrawn rows other)
    (hcall : call.Redrawn (file.Shows rows other) call') :
    issueOf? other call' = (issueOf? file call).map (Issue.down rows) := by
  unfold issueOf?
  rw [ActionSite.command?_redrawn hcall.node]
  cases ActionSite.command? libraryObject call.node with
  | none => rfl
  | some command =>
    have hissue := Finding.issue_redrawn hcall.node.chainStart.1 hcall.node (finding command)
    simp only [Option.map_some, Option.bind_some, isSettled_redrawn h hcall]
    split
    · rfl
    · exact congrArg some hissue

theorem found_redrawn (h : file.Redrawn rows other) :
    found other = (found file).map (Issue.down rows) := by
  rw [found_eq, found_eq, List.map_filterMap]
  exact filterMap_eq_of_forall₂ h.cursor.calls fun _ _ hcall => issueOf?_redrawn h hcall

end UnverifiedAction

namespace BrokenChain

/-- Nothing is reported for a comment. -/
theorem brokenAt?_comment (h : c.kind = .comment) : brokenAt? c = none := by
  simp [brokenAt?, isHelper, h, Kind.isCallback, Kind.isFunctionDeclaration]

theorem filterMap_brokenAt? (places : List Cursor) :
    places.filterMap brokenAt? =
      (places.filter fun place => place.kind ≠ .comment).filterMap brokenAt? := by
  rw [List.filterMap_filter]
  refine List.filterMap_congr fun place _ => ?_
  by_cases hcomment : place.kind = .comment
  · simp [hcomment, brokenAt?_comment]
  · simp [hcomment]

theorem issues_redrawn (h : file.Redrawn rows other) :
    issues other = (issues file).map (Issue.down rows) := by
  have hplaces := h.cursor.walk (p := fun kind => kind ≠ .comment) rfl
  unfold issues
  rw [List.map_map, filterMap_brokenAt?, filterMap_brokenAt? file.cursor.walk]
  refine map_eq_of_forall₂ (List.rel_filterMap (fun _ _ hplace => brokenAt?_redrawn hplace) hplaces)
    fun (finding, function) (finding', function') hfound => ?_
  obtain ⟨hfinding, hfunction⟩ := hfound
  dsimp only at hfinding
  subst hfinding
  exact TestFile.issueAt_redrawn hfunction _

end BrokenChain

end

-- ---------------------------------------------------------------------------
-- Tests and ratings
-- ---------------------------------------------------------------------------

namespace TestBlock

theorem numbered_redrawn {bodies bodies' : List Node}
    (h : List.Forall₂ (Node.Redrawn (file.Shows rows other)) bodies bodies') (index : Int) :
    numbered index bodies' = (numbered index bodies).map (TestBlock.down rows) := by
  induction h generalizing index with
  | nil => rfl
  | cons hbody _ ih =>
    rw [numbered, numbered, List.map_cons, ih, hbody.line, hbody.lastLine]
    simp [TestBlock.down]

theorem indexFor?_down (blocks : List TestBlock) (line : Option Int) :
    indexFor? (blocks.map (TestBlock.down rows)) (line.map (· + (rows : Int))) =
      indexFor? blocks line := by
  have hcontains (block : TestBlock) (line : Int) :
      (block.down rows).contains (line + rows) = block.contains line := by
    unfold contains TestBlock.down
    rw [Bool.eq_iff_iff]
    simp only [Bool.and_eq_true, decide_eq_true_eq]
    omega
  cases line with
  | none => rfl
  | some line =>
    unfold indexFor?
    simp only [Option.map_some, Option.bind_some, List.find?_map, Function.comp_def, hcontains,
      Option.map_map]
    rfl

/-- The bucket of a test holds the issues it held before, moved down. -/
theorem getD_get?_buckets_down (blocks : List TestBlock) (issues : List Issue) (index : Int) :
    ((buckets (blocks.map (TestBlock.down rows)) (issues.map (Issue.down rows))).get? index).getD [] =
      (((buckets blocks issues).get? index).getD []).map (Issue.down rows) := by
  have hline (issue : Issue) : (issue.down rows).line = issue.line.map (· + (rows : Int)) := by
    unfold Issue.line Issue.down
    rw [Option.map_map, Option.map_map]
    rfl
  unfold buckets
  rw [getD_get?_bucketsBy, getD_get?_bucketsBy, List.filter_map]
  simp only [Function.comp_def, hline, indexFor?_down]

end TestBlock

namespace Checker

theorem score_down {α : Type} [Quantity α] (issues : List Issue) (blocks : List TestBlock) :
    (score (issues.map (Issue.down rows)) (blocks.map (TestBlock.down rows)) : Except Fault α) =
      score issues blocks := by
  have hseverities : (issues.map (Issue.down rows)).map Issue.severity =
      issues.map Issue.severity := by
    rw [List.map_map]
    rfl
  unfold score Score.ofIssues Score.failingTests
  rw [hseverities, List.length_map]
  simp only [TestBlock.getD_get?_buckets_down, List.isEmpty_map]

theorem rated_down (checker : Checker) (path : String) (issues : List Issue)
    (blocks : List TestBlock) :
    checker.rated path (issues.map (Issue.down rows)) (blocks.map (TestBlock.down rows)) =
      (checker.rated path issues blocks).map (Output.down rows) := by
  unfold rated
  rw [score_down, List.length_map]
  cases (score issues blocks : Except Fault Number) with
  | error fault => rfl
  | ok score =>
    simp only [bind, Except.bind]
    cases checker.summary issues.length (Score.grade score) (some score) <;> rfl

theorem found_redrawn (h : file.Redrawn rows other) (checker : Checker) :
    checker.found other = (checker.found file).map (Issue.down rows) := by
  cases checker with
  | asyncReliability =>
    unfold found
    dsimp only
    rw [waitsFound_redrawn h, UnverifiedAction.found_redrawn h, BrokenChain.issues_redrawn h,
      List.map_append, List.map_append]
  | pageTimeouts =>
    unfold found
    dsimp only
    rw [List.map_flatMap]
    exact flatMap_eq_of_forall₂ h.cursor.calls fun _ _ hcall => timeoutsAt_redrawn hcall

theorem blocksFound_redrawn (h : file.Redrawn rows other) (checker : Checker) :
    checker.blocksFound other = (checker.blocksFound file).map (TestBlock.down rows) :=
  TestBlock.numbered_redrawn (TestBlock.bodies_redrawn h.cursor checker.testNames) 0

theorem blocks_redrawn (h : file.Redrawn rows other) (checker : Checker) :
    checker.blocks other = (checker.blocks file).map (List.map (TestBlock.down rows)) := by
  obtain ⟨hfile, hother⟩ := h.root.isPositioned
  rw [blocks_eq_ok hfile, blocks_eq_ok hother, blocksFound_redrawn h]
  rfl

/-- A redrawn source gets the output of the first one, with the issues moved down. -/
theorem analyze_redrawn (h : file.Redrawn rows other) (checker : Checker) :
    checker.analyze other = (checker.analyze file).map (Output.down rows) := by
  obtain ⟨hfile, hother⟩ := h.root.isPositioned
  rw [analyze_eq hfile, analyze_eq hother, isStopped_redrawn h, found_redrawn h,
    blocksFound_redrawn h, h.path, rated_down]
  split <;> rfl

end Checker

end FlakeLint
