-- SUMMARY: The order of the issues of each pass, and where that of the chain pass goes back.
import FlakeLint.Proofs.Passes.MissingPositions
import FlakeLint.Proofs.Passes.Order
import FlakeLint.Proofs.Tree.SourceOrder

/-!
# The order of issues

Each pass goes through a tree in the order of its source. The issues about waits and
about actions therefore never go back. Those about broken chains do: a callback is
reported when the walk comes upon its call, and the last call of a chain stands around
the calls before it. So a callback is reported before whatever stands in its call, but
in front of the callback.
-/

namespace FlakeLint

-- ---------------------------------------------------------------------------
-- Issues one after the other
-- ---------------------------------------------------------------------------

namespace Issue

/-- Line and column at which an issue is located, if it is. -/
def place? (issue : Issue) : Option (Int × Int) :=
  issue.location.bind fun location => location.column.map fun column => (location.line, column)

/-- The later issue is not located in front of the former one. -/
def IsUpTo (former later : Issue) : Prop :=
  ∀ place ∈ former.place?, ∀ place' ∈ later.place?,
    place.1 < place'.1 ∨ place.1 = place'.1 ∧ place.2 ≤ place'.2

end Issue

namespace Problem

variable {file : TestFile}

/-- A problem is located where its first node starts. -/
theorem place?_issue {problem : Problem} {place : Int × Int}
    (h : place ∈ (problem.issue file).place?) :
    place = ((problem.first.line : Int),
      charColumn file.parsed.lines problem.first.start.row problem.first.start.column) := by
  obtain ⟨location, hlocation, hcolumn⟩ := Option.bind_eq_some_iff.1 h
  obtain ⟨hplace, -⟩ := Option.filter_eq_some_iff.1 hlocation
  rw [Parsed.location_eq] at hplace
  split at hplace
  · cases hplace
  · cases hplace
    cases hcolumn
    rfl

/-- The issues of problems come one after the other if the nodes that they start at do. -/
theorem issue_isUpTo {content : String}
    (hlines : file.parsed.lines = byteLines (Utf8.encode content.toList)) {former later : Problem}
    (h : former.first.start.IsUpTo later.first.start) :
    (former.issue file).IsUpTo (later.issue file) := by
  intro place hplace place' hplace'
  rw [place?_issue hplace, place?_issue hplace', hlines]
  rcases h with hrow | ⟨hrow, hcolumn⟩
  · exact .inl (Int.ofNat_lt.2 (Nat.succ_lt_succ hrow))
  · right
    unfold Node.line
    rw [hrow]
    exact ⟨rfl, charColumn_mono content.toList later.first.start.row hcolumn⟩

theorem pairwise_issues {content : String}
    (hlines : file.parsed.lines = byteLines (Utf8.encode content.toList)) {problems : List Problem}
    (h : problems.Pairwise fun former later => former.first.start.IsUpTo later.first.start) :
    (problems.map (Problem.issue file)).Pairwise Issue.IsUpTo :=
  List.pairwise_map.2 (h.imp (issue_isUpTo hlines))

end Problem

-- ---------------------------------------------------------------------------
-- Waits and actions
-- ---------------------------------------------------------------------------

section

variable {file : TestFile} {outer : Span}

/-- The calls of a file are in the order of its source. -/
theorem TestFile.pairwise_calls (hnested : file.parsed.root.NestsIn outer)
    (hordered : file.parsed.root.InSourceOrder) :
    file.cursor.calls.Pairwise fun former later => former.node.start.IsUpTo later.node.start :=
  (Cursor.pairwise_start_walk (c := file.cursor) hnested hordered).filter _

theorem Checker.pairwise_waitProblems (hnested : file.parsed.root.NestsIn outer)
    (hordered : file.parsed.root.InSourceOrder) (checker : Checker) :
    (file.cursor.calls.flatMap fun call => waitProblems file call checker).Pairwise
      fun former later => former.first.start.IsUpTo later.first.start := by
  have hfirst {call : Cursor} {problem : Problem} (h : problem ∈ waitProblems file call checker) :
      problem.first = call.node := by
    obtain ⟨finding, -, rfl⟩ := List.mem_map.1 h
    rfl
  refine List.pairwise_flatMap.2 ⟨?_, ?_⟩
  · intro call _
    refine List.pairwise_of_forall_mem_list fun problem hproblem problem' hproblem' => ?_
    rw [hfirst hproblem, hfirst hproblem']
    exact .refl _
  · refine (TestFile.pairwise_calls hnested hordered).imp ?_
    intro call call' hbefore problem hproblem problem' hproblem'
    rw [hfirst hproblem, hfirst hproblem']
    exact hbefore

theorem UnverifiedAction.pairwise_problems (hnested : file.parsed.root.NestsIn outer)
    (hordered : file.parsed.root.InSourceOrder) :
    (file.cursor.calls.filterMap (problem? file)).Pairwise
      fun former later => former.first.start.IsUpTo later.first.start := by
  -- The problem of an action starts with its chain, and that starts where the call does.
  have hfirst {call : Cursor} {problem : Problem} (hcall : call ∈ file.cursor.calls)
      (h : problem? file call = some problem) : problem.first.start = call.node.start := by
    have hkind : call.node.kind = .call := of_decide_eq_true (List.mem_filter.1 hcall).2
    rw [(ends_of_problem? h).1]
    exact Node.start_chainStart (hordered.of_contains (Cursor.contains_of_mem_calls hcall)) hkind
  refine List.pairwise_filterMap.2 ?_
  refine List.Pairwise.imp_of_mem ?_ (TestFile.pairwise_calls hnested hordered)
  intro call call' hcall hcall' hbefore problem hproblem problem' hproblem'
  rw [hfirst hcall hproblem, hfirst hcall' hproblem']
  exact hbefore

theorem UnverifiedAction.found_eq_problems (h : file.parsed.root.isPositioned) :
    found file = (file.cursor.calls.filterMap (problem? file)).map (Problem.issue file) := by
  have hends : (ActionSite.ends file.parsed libraryObject).any Node.isUnplaced = false := by
    refine Node.any_isUnplaced_eq_false fun n hn => ?_
    obtain ⟨call, hcall, hend⟩ := List.mem_flatMap.1 hn
    have hpositioned := Cursor.isPositioned_of_mem_calls h (List.mem_filter.1 hcall).1
    simp only [List.mem_cons, List.not_mem_nil, or_false] at hend
    rcases hend with rfl | rfl
    · exact Node.isPositioned_of_contains (Node.contains_chainStart call.node) hpositioned
    · exact hpositioned
  rw [found_eq, List.map_filterMap]
  exact List.filterMap_congr fun call hcall => issueOf?_eq hcall hends

end

-- ---------------------------------------------------------------------------
-- Broken chains
-- ---------------------------------------------------------------------------

namespace BrokenChain

/-- A broken chain, with the place at which the pass comes upon it. -/
structure Break where
  place : Cursor
  finding : Finding
  function : Node

/-- The broken chain that the pass comes upon at a place. -/
def breakAt? (place : Cursor) : Option Break :=
  (brokenAt? place).map fun (finding, function) => ⟨place, finding, function⟩

/-- The broken chains below a place, in the order of the pass. -/
def breaks (root : Cursor) : List Break :=
  root.walk.filterMap breakAt?

def Break.issue (file : TestFile) (found : Break) : Issue :=
  file.issueAt found.finding found.function

theorem issues_eq_map_breaks (file : TestFile) :
    issues file = (breaks file.cursor).map (Break.issue file) := by
  unfold issues breaks breakAt?
  rw [List.map_filterMap, List.map_filterMap]
  refine List.filterMap_congr fun place _ => ?_
  rw [Option.map_map]
  rfl

theorem brokenAt?_of_breakAt? {place : Cursor} {found : Break} (h : breakAt? place = some found) :
    found.place = place ∧ brokenAt? place = some (found.finding, found.function) := by
  obtain ⟨_, hbroken, rfl⟩ := Option.map_eq_some_iff.1 h
  exact ⟨rfl, hbroken⟩

/-- Arguments as a whole are no function, and no call. -/
theorem breakAt?_arguments {place : Cursor} (h : place.kind = .arguments) :
    breakAt? place = none := by
  unfold breakAt? brokenAt?
  simp [isHelper, h, Kind.isFunctionDeclaration, Kind.isCallback]

/-- The former break is that of a callback, and the later one is come upon in the call, in front of the
callback: in the part of a chain that the call goes on from, say. -/
structure Break.Overtakes (former later : Break) : Prop where
  isThenCall : isThenCall former.place = true
  callback : former.place.node.arguments.head? = some former.function
  contains : former.place.node.Contains later.place.node
  stop : later.place.node.stop.IsUpTo former.function.start

/-- The former break starts first, or it overtakes the later one. -/
def Break.IsFollowedBy (former later : Break) : Prop :=
  former.function.start.IsUpTo later.function.start ∨
    former.Overtakes later ∧ later.function.start.IsUpTo former.function.start

section

variable {outer : Span} {place later : Cursor} {found found' : Break}

/-- A reported function lies in the place at which the pass comes upon it. -/
theorem spans_of_breakAt? (hnested : place.node.NestsIn outer) (h : breakAt? place = some found) :
    place.node.start.IsUpTo found.function.start ∧
      found.function.start.IsUpTo found.function.stop ∧
      found.function.stop.IsUpTo place.node.stop := by
  have hcontains := contains_of_brokenAt? (brokenAt?_of_breakAt? h).2
  exact ⟨hnested.start_isUpTo hcontains, (Node.NestsIn.of_contains hcontains hnested).span,
    hnested.stop_isUpTo hcontains⟩

/-- From a place to one below it. -/
theorem isFollowedBy_of_below (hnested : place.node.NestsIn outer)
    (hordered : place.node.InSourceOrder) {child : Cursor} (hchild : child ∈ place.children)
    (hlater : later ∈ child.walk) (h : breakAt? place = some found)
    (h' : breakAt? later = some found') : found.IsFollowedBy found' := by
  obtain ⟨n, hn, rfl⟩ := List.mem_map.1 hchild
  have hbelow : n.Contains later.node := Cursor.contains_of_mem_walk hlater
  have hcontains : place.node.Contains later.node := .step hn hbelow
  obtain ⟨hstart, hspan, hstop⟩ := spans_of_breakAt? (Node.NestsIn.of_contains hcontains hnested) h'
  obtain ⟨rfl, hbroken⟩ := brokenAt?_of_breakAt? h
  obtain ⟨rfl, -⟩ := brokenAt?_of_breakAt? h'
  rcases brokenAt?_cases hbroken with ⟨hthen, hargument, -⟩ | ⟨-, -, hself⟩
  · rcases Node.cases_below_call hnested hordered hargument hn hbelow with hkind | hbefore | hbehind
    · rw [breakAt?_arguments hkind] at h'
      cases h'
    · exact .inr ⟨⟨hthen, hargument, hcontains, hbefore⟩, (hspan.trans hstop).trans hbefore⟩
    · exact .inl (hbehind.trans hstart)
  · rw [Break.IsFollowedBy, hself]
    exact .inl ((hnested.start_isUpTo hcontains).trans hstart)

/-- From a place to one that starts behind its end. -/
theorem isFollowedBy_of_behind (hnested : place.node.NestsIn outer)
    (hnested' : later.node.NestsIn outer) (hbehind : place.node.stop.IsUpTo later.node.start)
    (h : breakAt? place = some found) (h' : breakAt? later = some found') :
    found.IsFollowedBy found' := by
  obtain ⟨-, hspan, hstop⟩ := spans_of_breakAt? hnested h
  obtain ⟨hstart, -, -⟩ := spans_of_breakAt? hnested' h'
  exact .inl (((hspan.trans hstop).trans hbehind).trans hstart)

theorem pairwise_breaks (root : Cursor) (hnested : root.node.NestsIn outer)
    (hordered : root.node.InSourceOrder) : (breaks root).Pairwise Break.IsFollowedBy := by
  refine List.pairwise_filterMap.2 (Cursor.pairwise_walk ?_ ?_)
  · intro place hplace child hchild later hlater found h found' h'
    have hcontains := Cursor.contains_of_mem_walk hplace
    exact isFollowedBy_of_below (Node.NestsIn.of_contains hcontains hnested)
      (hordered.of_contains hcontains) hchild hlater h h'
  · intro place hplace
    have hcontains := Cursor.contains_of_mem_walk hplace
    have hplaced := Node.NestsIn.of_contains hcontains hnested
    have hwithin {child former : Cursor} (hchild : child ∈ place.children)
        (hformer : former ∈ child.walk) : former.node.NestsIn outer := by
      obtain ⟨n, hn, rfl⟩ := List.mem_map.1 hchild
      exact Node.NestsIn.of_contains (.step hn (Cursor.contains_of_mem_walk hformer)) hplaced
    refine List.Pairwise.imp_of_mem ?_
      (Cursor.pairwise_children hplaced (hordered.of_contains hcontains))
    intro child child' hchild hchild' hbehind former hformer later hlater found h found' h'
    exact isFollowedBy_of_behind (hwithin hchild hformer) (hwithin hchild' hlater)
      (hbehind former hformer later hlater) h h'

end

end BrokenChain

-- ---------------------------------------------------------------------------
-- All passes
-- ---------------------------------------------------------------------------

/-- On a tree in the order of its source, the issues about waits and those about actions never go back.
Those about broken chains do not go back either, but for one case: the issue about a callback overtakes
those about what stands in its call in front of the callback, and is located behind them. -/
theorem Checker.passes_in_source_order {file : TestFile} {content : String} {outer : Span}
    (hlines : file.parsed.lines = byteLines (Utf8.encode content.toList))
    (hnested : file.parsed.root.NestsIn outer) (hordered : file.parsed.root.InSourceOrder) :
    (∃ waits, waitPass file =
        (if isStopped file .asyncReliability then .error (.number .tooLongToWrite)
        else .ok waits) ∧
      waits.Pairwise Issue.IsUpTo) ∧
    (∃ actions, UnverifiedAction.pass file = .ok actions ∧ actions.Pairwise Issue.IsUpTo) ∧
    BrokenChain.issues file =
      (BrokenChain.breaks file.cursor).map (BrokenChain.Break.issue file) ∧
    (BrokenChain.breaks file.cursor).Pairwise fun former later =>
      (former.issue file).IsUpTo (later.issue file) ∨
      former.Overtakes later ∧ (later.issue file).IsUpTo (former.issue file) := by
  have hpositioned := hnested.isPositioned
  refine ⟨⟨waitsFound file, waitPass_eq hpositioned, ?_⟩,
    ⟨UnverifiedAction.found file, UnverifiedAction.pass_eq_ok hpositioned, ?_⟩,
    BrokenChain.issues_eq_map_breaks file, ?_⟩
  · have hwaits : waitsFound file =
        (file.cursor.calls.flatMap fun call => waitProblems file call .asyncReliability).map
          (Problem.issue file) := by
      rw [List.map_flatMap]
      exact List.flatMap_congr fun call _ => waitsAt_eq file call
    rw [hwaits]
    exact Problem.pairwise_issues hlines (pairwise_waitProblems hnested hordered .asyncReliability)
  · rw [UnverifiedAction.found_eq_problems hpositioned]
    exact Problem.pairwise_issues hlines (UnverifiedAction.pairwise_problems hnested hordered)
  · refine (BrokenChain.pairwise_breaks file.cursor hnested hordered).imp ?_
    intro former later hfollowed
    have hissue (found : BrokenChain.Break) :
        found.issue file = (Problem.about found.function found.finding).issue file := rfl
    rw [hissue, hissue]
    rcases hfollowed with hbefore | ⟨hovertakes, hbehind⟩
    · exact .inl (Problem.issue_isUpTo hlines hbefore)
    · exact .inr ⟨hovertakes, Problem.issue_isUpTo hlines hbehind⟩

namespace Sample

/-- A chain with two callbacks that return nothing. -/
def twoCallbacksSource : String :=
  "cy.get('a').then(() => \x7b cy.b(); \x7d).then(() => \x7b cy.c(); \x7d);\n"

/-- A callback with one command in its block, with the offsets of all three. -/
def callback (start block command stop : Nat) : Outline :=
  piece .arrowFunction none start stop [
    piece .block (some .body) block stop [
      methodCall none command (command + 3) (command + 4) (command + 6)
        (piece .identifier (some .object) command (command + 2) []) []]]

def twoCallbacksOutline : Outline :=
  piece (.other "program") none 0 61 [
    methodCall none 0 36 40 59
      (methodCall (some .object) 0 12 16 35
        (methodCall (some .object) 0 3 6 11 (piece .identifier (some .object) 0 2 [])
          [piece .string none 7 10 []])
        [callback 17 23 25 34])
      [callback 41 47 49 58]]

def twoCallbacks : TestFile :=
  .ofOutline "cypress/a.cy.js" twoCallbacksSource defaultGrammar twoCallbacksOutline

end Sample

/-- The second callback is reported first: it overtakes the first one. -/
theorem Checker.passes_in_source_order_two_callbacks :
    (BrokenChain.issues Sample.twoCallbacks).map Issue.place? = [some (1, 41), some (1, 17)] ∧
    ∃ former later, BrokenChain.breaks Sample.twoCallbacks.cursor = [former, later] ∧
      former.Overtakes later ∧
      (later.issue Sample.twoCallbacks).IsUpTo (former.issue Sample.twoCallbacks) := by
  have hnested : Sample.twoCallbacks.parsed.root.IsNested
      (Utf8.encode Sample.twoCallbacksSource.toList) 0 61 :=
    Node.isNested_place (by decide +kernel)
  obtain ⟨-, -, hissues, hbreaks⟩ :=
    @passes_in_source_order Sample.twoCallbacks Sample.twoCallbacksSource _ rfl hnested.nestsIn
      (by decide +kernel)
  have hplaces : (BrokenChain.issues Sample.twoCallbacks).map Issue.place? =
      [some (1, 41), some (1, 17)] := by
    decide +kernel
  have hlist := hplaces
  rw [hissues, List.map_map] at hlist
  obtain ⟨former, _, heq, hformer, hrest⟩ := List.map_eq_cons_iff.1 hlist
  obtain ⟨later, _, rfl, hlater, hnil⟩ := List.map_eq_cons_iff.1 hrest
  obtain rfl := List.map_eq_nil_iff.1 hnil
  rw [heq, List.pairwise_pair] at hbreaks
  rcases hbreaks with hbefore | hovertakes
  · exact absurd (hbefore (1, 41) hformer (1, 17) hlater) (by decide)
  · exact ⟨hplaces, former, later, heq, hovertakes⟩

end FlakeLint
