-- SUMMARY: The lines of assertions: those on which an assertion of the tree starts, wherever it is nested.
import FlakeLint.Proofs.Passes.Queries
import FlakeLint.Proofs.Table
import FlakeLint.Proofs.Tree.Around
import FlakeLint.Proofs.Tree.Outline

/-!
# Lines of assertions

The search for the lines of assertions goes through all calls of a tree and, besides,
looks at the statements in the callbacks of `.then(…)`. What it finds there are calls
of the tree as well, so that the lines are those of all assertions, each at its own.
-/

namespace FlakeLint

namespace Assertion

variable {n : Node} {place : Cursor}

-- ---------------------------------------------------------------------------
-- Assertions
-- ---------------------------------------------------------------------------

/-- The call is made on a member whose property has one of the names. -/
def IsMethodCall (names : List String) (n : Node) : Prop :=
  ∃ callee, n.child? .function = some callee ∧ callee.kind = .member ∧
    ∃ property, callee.child? .property = some property ∧ property.kind.isPropertyName = true ∧
      property.text ∈ names

/-- The call is made on the name itself. -/
def IsDirectCall (name : String) (n : Node) : Prop :=
  ∃ callee, n.child? .function = some callee ∧ callee.kind = .identifier ∧ callee.text = name

/-- A call of an asserting method, or of `expect` itself. -/
def IsAssertionCall (n : Node) : Prop :=
  n.kind = .call ∧
    (IsMethodCall ["should", "contains", "expect", "and", "assert"] n ∨ IsDirectCall "expect" n)

theorem any_methodName?_iff {names : List String} :
    n.methodName?.any names.contains = true ↔ IsMethodCall names n := by
  unfold Node.methodName? Node.memberCallee? Node.callee? Node.propertyName?
  rw [Option.any_eq_true]
  constructor
  · rintro ⟨name, hname, hmem⟩
    obtain ⟨callee, hcallee, hname⟩ := Option.bind_eq_some_iff.1 hname
    obtain ⟨hcallee, hmember⟩ := Option.filter_eq_some_iff.1 hcallee
    split at hname
    · next property hproperty =>
      split at hname
      · next hkind =>
        cases hname
        exact ⟨callee, hcallee, of_decide_eq_true hmember, property, hproperty, hkind,
          List.contains_iff_mem.1 hmem⟩
      · cases hname
    · cases hname
  · rintro ⟨callee, hcallee, hmember, property, hproperty, hkind, hmem⟩
    refine ⟨property.text, ?_, List.contains_iff_mem.2 hmem⟩
    rw [hcallee, Option.filter_some, if_pos (decide_eq_true hmember), Option.bind_some, hproperty]
    exact if_pos hkind

theorem calleeName?_iff {name : String} : n.calleeName? = some name ↔ IsDirectCall name n := by
  unfold Node.calleeName? Node.callee? IsDirectCall
  rw [Option.bind_eq_some_iff]
  refine exists_congr fun callee => and_congr_right fun _ => ?_
  unfold Node.identifier?
  split
  · next hkind => rw [Option.some_inj]; simp [hkind]
  · next hkind => simp [hkind]

theorem isAssertionCall_iff : IsAssertionCall n ↔ n.kind = .call ∧ isAssertion n = true := by
  unfold IsAssertionCall isAssertion methods
  rw [Bool.or_eq_true, any_methodName?_iff, beq_iff_eq, calleeName?_iff]

-- ---------------------------------------------------------------------------
-- Where they stand
-- ---------------------------------------------------------------------------

theorem isAssertionCall_of_mem_inThenCallback {call site : Node} (h : site ∈ inThenCallback call) :
    IsAssertionCall site := by
  obtain ⟨_, -, _, -, _, -, -, hassertion⟩ := exists_of_mem_inThenCallback h
  exact isAssertionCall_iff.2 hassertion

/-- The sites are the assertions of the tree: the look into callbacks finds nothing else. -/
theorem mem_sites_iff : n ∈ sites place ↔ place.node.Contains n ∧ IsAssertionCall n := by
  unfold sites
  rw [List.mem_flatMap]
  constructor
  · rintro ⟨call, hcall, hsite⟩
    refine ⟨(Cursor.contains_of_mem_calls hcall).trans (contains_of_mem_sitesOf hsite), ?_⟩
    rcases List.mem_append.1 hsite with hself | hcallback
    · split at hself
      · next hassertion =>
        rw [List.mem_singleton.1 hself, isAssertionCall_iff]
        exact ⟨of_decide_eq_true (List.mem_filter.1 hcall).2, hassertion⟩
      · cases hself
    · exact isAssertionCall_of_mem_inThenCallback hcallback
  · rintro ⟨hcontains, hassertion⟩
    obtain ⟨hcall, hassertion⟩ := isAssertionCall_iff.1 hassertion
    obtain ⟨call, hmem, rfl⟩ := Cursor.exists_mem_walk_of_contains hcontains place.above
    refine ⟨call, List.mem_filter.2 ⟨hmem, decide_eq_true hcall⟩, List.mem_append_left _ ?_⟩
    rw [if_pos hassertion]
    exact List.mem_singleton_self _

-- ---------------------------------------------------------------------------
-- Their lines
-- ---------------------------------------------------------------------------

/-- If every assertion of a tree has a position, the lines of assertions are the lines on which the
assertions of the tree start, each once. -/
theorem lines_eq_startLines
    (h : ∀ n, place.node.Contains n → IsAssertionCall n → ∃ line, n.startLine = .ok line) :
    ∃ found, lines place = .ok found ∧ found.Nodup ∧
      ∀ line, line ∈ found ↔
        ∃ n, place.node.Contains n ∧ IsAssertionCall n ∧ n.startLine = .ok line := by
  have hplaced : ∀ n ∈ sites place, n.isUnplaced = false := by
    intro n hn
    obtain ⟨hcontains, hassertion⟩ := mem_sites_iff.1 hn
    obtain ⟨line, hline⟩ := h n hcontains hassertion
    exact (Node.startLine_eq_ok_iff.1 hline).1
  have hok : lines place = .ok ((sites place).map Node.line).eraseDups := by
    rw [lines_guarded, List.any_eq_false.2 fun n hn => Bool.eq_false_iff.1 (hplaced n hn)]
    rfl
  refine ⟨_, hok, Table.nodup_eraseDups _, fun line => ?_⟩
  rw [List.mem_eraseDups, List.mem_map]
  constructor
  · rintro ⟨n, hn, hline⟩
    obtain ⟨hcontains, hassertion⟩ := mem_sites_iff.1 hn
    exact ⟨n, hcontains, hassertion, Node.startLine_eq_ok_iff.2 ⟨hplaced n hn, hline⟩⟩
  · rintro ⟨n, hcontains, hassertion, hline⟩
    exact ⟨n, mem_sites_iff.2 ⟨hcontains, hassertion⟩, (Node.startLine_eq_ok_iff.1 hline).2⟩

end Assertion

namespace Sample

/-- The call of a function with a single name as its argument. -/
def nameCall (role : Option Role) (start arguments stop : Nat) : Outline :=
  piece .call role start stop [
    piece .identifier (some .function) start arguments [],
    piece .arguments (some .arguments) arguments stop [
      piece .identifier none (arguments + 1) (stop - 1) []]]

/-- An assertion in a callback, behind a comment, and one behind the chain. -/
def assertedInCallback : TestFile :=
  .ofOutline "a.cy.js" "cy.get('a').then(() => \x7b\n  // seen\n  expect(b);\n\x7d);\nexpect(c);"
      defaultGrammar <|
    piece (.other "program") none 0 62 [
      methodCall none 0 12 16 50
        (methodCall (some .object) 0 3 6 11 (piece .identifier (some .object) 0 2 [])
          [piece .string none 7 10 []])
        [piece .arrowFunction none 17 49 [
          piece .block (some .body) 23 49 [
            piece .comment none 27 34 [],
            piece .expressionStatement none 37 47 [nameCall none 37 43 46]]]],
      piece .expressionStatement none 52 62 [nameCall none 52 58 61]]

end Sample

/-- The assertion in the callback is found with the callback and by itself, and its line listed once. -/
theorem Assertion.lines_of_assertedInCallback :
    (∀ n, Sample.assertedInCallback.cursor.node.Contains n → IsAssertionCall n →
      ∃ line, n.startLine = .ok line) ∧
    (sites Sample.assertedInCallback.cursor).length = 3 ∧
    lines Sample.assertedInCallback.cursor = .ok [3, 5] ∧
    ∀ line, line ∈ [3, 5] ↔
      ∃ n, Sample.assertedInCallback.cursor.node.Contains n ∧ IsAssertionCall n ∧
        n.startLine = .ok line := by
  have hpositioned : Sample.assertedInCallback.cursor.node.isPositioned := by decide +kernel
  have hplaced : ∀ n, Sample.assertedInCallback.cursor.node.Contains n → IsAssertionCall n →
      ∃ line, n.startLine = .ok line := fun n hcontains _ =>
    ⟨n.line, Node.startLine_eq_ok (Node.isPositioned_of_contains hcontains hpositioned)⟩
  have hlines : lines Sample.assertedInCallback.cursor = .ok [3, 5] := by decide +kernel
  obtain ⟨found, hfound, -, hmem⟩ := lines_eq_startLines hplaced
  rw [hlines] at hfound
  cases hfound
  exact ⟨hplaced, by decide +kernel, hlines, hmem⟩

end FlakeLint
