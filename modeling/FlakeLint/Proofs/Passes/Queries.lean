-- SUMMARY: Queries for lines, sites and test blocks as plain functions, and the positions they ask for.
import FlakeLint.Analysis.Action
import FlakeLint.Analysis.TestBlock
import FlakeLint.Analysis.Wait
import FlakeLint.Proofs.Traversal
import FlakeLint.Proofs.Tree.Position

/-!
# Queries

The queries of the analysis fail only where a node without a position is asked
for its line. For each of them the nodes that are asked are named here; as long as
these have positions, and so on a tree in which every node has one, the query is a
plain function of the tree.
-/

namespace FlakeLint

namespace Assertion

/-- The lines under a place that hold an assertion, each once. -/
def linesUnder (place : Cursor) : List Nat :=
  ((place.calls.flatMap fun call => sitesOf call.node).map Node.line).eraseDups

/-- The assertions under a place. -/
def sites (place : Cursor) : List Node :=
  place.calls.flatMap fun call => sitesOf call.node

/-- Does a related assertion start on one of the lines after `line`? -/
def isRelatedBelow (place : Cursor) (selector : String) (line : Int) : Bool :=
  place.calls.any fun call =>
    line < call.node.line && call.node.line ≤ line + relatedWindow && isRelated selector call

theorem mem_linesUnder {place : Cursor} {line : Nat} :
    line ∈ linesUnder place ↔
      ∃ call ∈ place.calls, ∃ site ∈ sitesOf call.node, site.line = line := by
  unfold linesUnder
  rw [List.mem_eraseDups, List.mem_map]
  simp only [List.mem_flatMap]
  constructor
  · rintro ⟨site, ⟨call, hcall, hsite⟩, hline⟩
    exact ⟨call, hcall, site, hsite, hline⟩
  · rintro ⟨call, hcall, site, hsite, hline⟩
    exact ⟨site, ⟨call, hcall, hsite⟩, hline⟩

/-- What is found in a callback is an assertion that a statement of its block begins with. -/
theorem exists_of_mem_inThenCallback {call site : Node} (h : site ∈ inThenCallback call) :
    ∃ callback ∈ call.arguments, ∃ body, callback.blockBody? = some body ∧
      ∃ statement ∈ body.parts, statement.parts.head? = some site ∧
        site.kind = .call ∧ isAssertion site = true := by
  unfold inThenCallback at h
  split at h
  · split at h
    · next callback rest hargs =>
      split at h
      · split at h
        · next body hbody =>
          obtain ⟨statement, hstatement, hsite⟩ := List.mem_filterMap.1 h
          obtain ⟨hfirst, hassertion⟩ := Option.filter_eq_some_iff.1 hsite
          rw [Bool.and_eq_true, decide_eq_true_eq] at hassertion
          exact ⟨callback, hargs ▸ List.mem_cons_self, body, hbody, statement,
            (List.mem_filter.1 hstatement).1, hfirst, hassertion⟩
        · cases h
      · cases h
    · cases h
  · cases h

theorem contains_of_mem_inThenCallback {call site : Node} (h : site ∈ inThenCallback call) :
    call.Contains site := by
  obtain ⟨callback, hcallback, body, hbody, statement, hstatement, hfirst, -⟩ :=
    exists_of_mem_inThenCallback h
  have hblock := (Node.contains_of_mem_arguments hcallback).trans (Node.contains_of_blockBody? hbody)
  exact hblock.trans ((Node.contains_of_mem_parts hstatement).trans
    (Node.contains_of_mem_parts (List.mem_of_head? hfirst)))

theorem contains_of_mem_sitesOf {call site : Node} (h : site ∈ sitesOf call) :
    call.Contains site := by
  rcases List.mem_append.1 h with h | h
  · split at h
    · rw [List.mem_singleton.1 h]
      exact .self call
    · cases h
  · exact contains_of_mem_inThenCallback h

theorem lines_guarded (place : Cursor) :
    lines place =
      if (sites place).any Node.isUnplaced then .error .missingPosition
      else .ok (linesUnder place) := by
  unfold lines
  dsimp only
  rw [mapM_eq_guarded fun site _ => Node.startLine_eq site, guarded_bind]
  rfl

theorem lines_eq_ok {place : Cursor} (h : place.node.isPositioned) :
    lines place = .ok (linesUnder place) := by
  have hsites : ∀ site ∈ sites place, site.isPositioned := by
    intro site hsite
    obtain ⟨call, hcall, hmem⟩ := List.mem_flatMap.1 hsite
    exact Node.isPositioned_of_contains (contains_of_mem_sitesOf hmem)
      (Cursor.isPositioned_of_mem_calls h hcall)
  rw [lines_guarded, Node.any_isUnplaced_eq_false hsites]
  rfl

/-- Is a call an assertion on a related selector on one of the lines after `line`? -/
def answers (selector : String) (line : Int) (call : Cursor) : Bool :=
  line < call.node.line && call.node.line ≤ line + relatedWindow && isRelated selector call

/-- The calls that a search for a related assertion goes through before it has its answer. -/
def searched (place : Cursor) (selector : String) (line : Int) : List Node :=
  (place.calls.takeWhile fun call =>
    call.node.isUnplaced || !answers selector line call).map Cursor.node

theorem hasRelated_guarded (place : Cursor) (selector : String) (line : Int) :
    hasRelated place selector line =
      if (searched place selector line).any Node.isUnplaced then .error .missingPosition
      else .ok (isRelatedBelow place selector line) := by
  unfold hasRelated searched
  rw [List.any_map]
  apply anyM_eq_guarded
  intro call _
  rw [call.node.startLine_eq]
  cases call.node.isUnplaced <;> simp [answers, bind, Except.bind, pure, Except.pure]

theorem isPositioned_of_mem_searched {place : Cursor} (h : place.node.isPositioned)
    {selector : String} {line : Int} {n : Node} (hn : n ∈ searched place selector line) :
    n.isPositioned := by
  obtain ⟨call, hcall, rfl⟩ := List.mem_map.1 hn
  exact Cursor.isPositioned_of_mem_calls h ((List.takeWhile_sublist _).subset hcall)

end Assertion

namespace ActionSite

/-- The site of a call that is a user action with the given command. -/
def ofCommand (parsed : Parsed) (call : Cursor) (command : String) : ActionSite where
  line := call.node.line
  command := command
  isAsserted := Assertion.isChained Assertion.methods call
  selector := call.node.chainStart.1.getSelector?
  location := parsed.spanning call.node.chainStart.1 call.node

/-- All user actions of a source, in source order. -/
def sites (parsed : Parsed) (object : String) : List ActionSite :=
  parsed.cursor.calls.filterMap fun call =>
    (command? object call.node).map (ofCommand parsed call)

/-- The user actions of a source, each after the first call of its chain. -/
def ends (parsed : Parsed) (object : String) : List Node :=
  (parsed.cursor.calls.filter fun call => (command? object call.node).isSome).flatMap
    fun call => [call.node.chainStart.1, call.node]

theorem find_guarded (parsed : Parsed) (object : String) :
    find parsed object =
      if (ends parsed object).any Node.isUnplaced then .error .missingPosition
      else .ok (sites parsed object) := by
  have hends : (ends parsed object).any Node.isUnplaced =
      (parsed.cursor.calls.filterMap fun call =>
        (command? object call.node).map fun command => (call, command)).any fun found =>
          found.1.node.chainStart.1.isUnplaced || found.1.node.isUnplaced := by
    rw [ends, List.any_flatMap, List.any_filter, List.any_filterMap]
    congr 1
    funext call
    cases command? object call.node <;> simp
  have hsites : sites parsed object =
      (parsed.cursor.calls.filterMap fun call =>
        (command? object call.node).map fun command => (call, command)).map
          fun found => ofCommand parsed found.1 found.2 := by
    rw [List.map_filterMap]
    simp only [Option.map_map]
    rfl
  rw [hends, hsites]
  apply mapM_eq_guarded
  intro (call, command) _
  simp only [Node.startLine_eq, Parsed.location_eq]
  cases call.node.isUnplaced <;> cases call.node.chainStart.1.isUnplaced <;> rfl

theorem find_eq_ok {parsed : Parsed} (h : parsed.root.isPositioned) (object : String) :
    find parsed object = .ok (sites parsed object) := by
  have hends : ∀ n ∈ ends parsed object, n.isPositioned := by
    intro n hn
    obtain ⟨call, hcall, hend⟩ := List.mem_flatMap.1 hn
    have hpositioned := Cursor.isPositioned_of_mem_calls (c := parsed.cursor) h
      (List.mem_filter.1 hcall).1
    rcases List.mem_pair.1 hend with rfl | rfl
    · exact Node.isPositioned_of_contains (Node.contains_chainStart call.node) hpositioned
    · exact hpositioned
  rw [find_guarded, Node.any_isUnplaced_eq_false hends]
  rfl

end ActionSite

namespace Wait

/-- The lines of all waits for aliases under a place, in source order. -/
def aliasLines (place : Cursor) (object : String) : List Nat :=
  (place.calls.filter fun call => (alias? object call.node).isSome).map fun call => call.node.line

/-- The waits for aliases under a place. -/
def aliasWaits (place : Cursor) (object : String) : List Node :=
  (place.calls.filter fun call => (alias? object call.node).isSome).map Cursor.node

theorem isConsecutive_guarded (place : Cursor) (line : Int) (object : String) :
    isConsecutive place line object =
      if (aliasWaits place object).any Node.isUnplaced then .error .missingPosition
      else .ok (inRun line 1 (aliasLines place object).mergeSort) := by
  unfold isConsecutive aliasWaits
  dsimp only
  rw [mapM_eq_guarded fun call _ => Node.startLine_eq (Cursor.node call), guarded_bind,
    List.any_map]
  rfl

theorem isConsecutive_eq_ok {place : Cursor} (h : place.node.isPositioned) (line : Int)
    (object : String) :
    isConsecutive place line object = .ok (inRun line 1 (aliasLines place object).mergeSort) := by
  have hwaits : ∀ n ∈ aliasWaits place object, n.isPositioned := by
    intro n hn
    obtain ⟨call, hcall, rfl⟩ := List.mem_map.1 hn
    exact Cursor.isPositioned_of_mem_calls h (List.mem_filter.1 hcall).1
  rw [isConsecutive_guarded, Node.any_isUnplaced_eq_false hwaits]
  rfl

end Wait

namespace TestBlock

/-- The blocks of some bodies, numbered from `index` on. -/
def numbered (index : Int) : List Node → List TestBlock
  | [] => []
  | body :: bodies => ⟨index, body.line, body.lastLine⟩ :: numbered (index + 1) bodies

theorem number_guarded (index : Int) (bodies : List Node) :
    number index bodies =
      if bodies.any Node.isUnplaced then .error .missingPosition
      else .ok (numbered index bodies) := by
  induction bodies generalizing index with
  | nil => rfl
  | cons body bodies ih =>
    unfold number
    rw [body.startLine_eq, body.endLine_eq, ih, List.any_cons]
    cases body.isUnplaced <;> cases bodies.any Node.isUnplaced <;> rfl

theorem number_eq_ok {bodies : List Node} (h : ∀ body ∈ bodies, body.isPositioned) (index : Int) :
    number index bodies = .ok (numbered index bodies) := by
  rw [number_guarded, Node.any_isUnplaced_eq_false h]
  rfl

theorem contains_of_bodyOf? {names : List String} {call body : Node}
    (h : bodyOf? names call = some body) : call.Contains body := by
  unfold bodyOf? at h
  split at h
  · split at h
    · next first callback rest hargs =>
      split at h
      · have hcallback : callback ∈ call.arguments := by simp [hargs]
        exact (Node.contains_of_mem_arguments hcallback).trans (Node.contains_of_blockBody? h)
      · cases h
    · cases h
  · cases h

theorem contains_of_mem_bodies {names : List String} {place : Cursor} {body : Node}
    (h : body ∈ bodies names place) : place.node.Contains body := by
  obtain ⟨call, hcall, hof⟩ := List.mem_filterMap.1 h
  exact (Cursor.contains_of_mem_calls hcall).trans (contains_of_bodyOf? hof)

theorem find_eq_ok {place : Cursor} (h : place.node.isPositioned) (names : List String) :
    find names place = .ok (numbered 0 (bodies names place)) := by
  apply number_eq_ok
  intro body hbody
  exact Node.isPositioned_of_contains (contains_of_mem_bodies hbody) h

end TestBlock

end FlakeLint
