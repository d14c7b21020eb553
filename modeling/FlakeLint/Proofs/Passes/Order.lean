-- SUMMARY: Another order of the top level of a source changes the order of the issues at most.
import FlakeLint.Proofs.Passes.Issues
import FlakeLint.Proofs.Tree.Outline
import FlakeLint.Proofs.Tree.Root
import Mathlib.Data.List.Sort

/-!
# Order of the top level

A pass looks at a place together with what the whole file declares, asserts and
waits for. The file is consulted through summaries that do not depend on order:
whether an alias is declared, whether a line has an assertion, the sorted lines of
waits. So a file whose top level is put into another order has the same issues.
-/

namespace FlakeLint

/-- Two outcomes that list the same things in whatever order, or fail alike. -/
inductive SameUpToOrder {α : Type} : Except Fault (List α) → Except Fault (List α) → Prop where
  | ok {xs ys : List α} : xs.Perm ys → SameUpToOrder (.ok xs) (.ok ys)
  | error (fault : Fault) : SameUpToOrder (.error fault) (.error fault)

theorem SameUpToOrder.guarded {α : Type} {xs ys : List α} (stopped : Bool) (fault : Fault)
    (h : xs.Perm ys) :
    SameUpToOrder (if stopped then .error fault else .ok xs)
      (if stopped then .error fault else .ok ys) := by
  cases stopped with
  | true => exact .error fault
  | false => exact .ok h

/-- The same file with other children of the root. -/
def TestFile.withChildren (file : TestFile) (children : List Node) : TestFile :=
  { file with parsed := { file.parsed with root := .mk file.parsed.root.head children } }

/-- The second pass of the checker, with the queries it relies on. -/
def UnverifiedAction.pass (file : TestFile) : Except Fault (List Issue) := do
  let assertionLines ← Assertion.lines file.cursor
  let sites ← ActionSite.find file.parsed libraryObject
  issues file assertionLines sites

theorem UnverifiedAction.pass_eq_ok {file : TestFile} (h : file.parsed.root.isPositioned) :
    pass file = .ok (found file) := by
  unfold pass
  rw [Assertion.lines_eq_ok (isPositioned_cursor h), ActionSite.find_eq_ok h]
  exact issues_eq_ok h

/-! ## The calls of two orders -/

section

variable {file : TestFile} {children : List Node} {name : String}

/-- The calls of both orders are the same calls, below one root or the other. -/
theorem TestFile.exists_calls_eq (hroot : file.parsed.root.kind = .other name)
    (hperm : file.parsed.root.children.Perm children) :
    ∃ calls calls' : List Cursor, calls.Perm calls' ∧
      file.cursor.calls = calls.map (Cursor.under [file.parsed.root]) ∧
      (file.withChildren children).cursor.calls =
        calls'.map (Cursor.under [(file.withChildren children).parsed.root]) := by
  have hroot' : (file.withChildren children).parsed.root.kind = .other name := hroot
  exact ⟨_, _, hperm.flatMap_right _, Cursor.calls_ofRoot hroot, Cursor.calls_ofRoot hroot'⟩

theorem TestFile.isPositioned_withChildren (h : file.parsed.root.isPositioned)
    (hperm : file.parsed.root.children.Perm children) :
    (file.withChildren children).parsed.root.isPositioned := by
  rw [Node.isPositioned_iff] at h ⊢
  exact ⟨h.1, fun child hchild => h.2 child (hperm.mem_iff.2 hchild)⟩

/-! ## What the file is consulted for -/

theorem Wait.mem_declaredAliases {place : Cursor} {waited : String} :
    waited ∈ declaredAliases place ↔
      ∃ call ∈ place.calls, declaredAlias? call.node = some waited := by
  unfold declaredAliases
  rw [List.mem_eraseDups, List.mem_filterMap]

theorem Wait.contains_declaredAliases_withChildren (hroot : file.parsed.root.kind = .other name)
    (hperm : file.parsed.root.children.Perm children) (waited : String) :
    (declaredAliases (file.withChildren children).cursor).contains waited =
      (declaredAliases file.cursor).contains waited := by
  obtain ⟨calls, calls', hcalls, heq, heq'⟩ := TestFile.exists_calls_eq hroot hperm
  rw [Bool.eq_iff_iff, List.contains_iff_mem, List.contains_iff_mem, mem_declaredAliases,
    mem_declaredAliases, heq, heq']
  simp only [List.mem_map, exists_exists_and_eq_and, hcalls.mem_iff]
  rfl

theorem Wait.sorted_aliasLines_withChildren (hroot : file.parsed.root.kind = .other name)
    (hperm : file.parsed.root.children.Perm children) (object : String) :
    (aliasLines (file.withChildren children).cursor object).mergeSort =
      (aliasLines file.cursor object).mergeSort := by
  obtain ⟨calls, calls', hcalls, heq, heq'⟩ := TestFile.exists_calls_eq hroot hperm
  have hlines : (aliasLines (file.withChildren children).cursor object).Perm
      (aliasLines file.cursor object) := by
    unfold aliasLines
    rw [heq, heq', List.filter_map, List.filter_map, List.map_map, List.map_map]
    exact ((hcalls.filter _).map _).symm
  -- Sorted lists with the same lines are equal.
  refine List.Perm.eq_of_sortedLE (List.sortedLE_mergeSort) (List.sortedLE_mergeSort) ?_
  exact ((List.mergeSort_perm _ _).trans hlines).trans (List.mergeSort_perm _ _).symm

theorem Wait.isConsecutive_withChildren (hpositioned : file.parsed.root.isPositioned)
    (hroot : file.parsed.root.kind = .other name)
    (hperm : file.parsed.root.children.Perm children) (line : Int) (object : String) :
    isConsecutive (file.withChildren children).cursor line object =
      isConsecutive file.cursor line object := by
  have hpositioned' := TestFile.isPositioned_withChildren hpositioned hperm
  rw [isConsecutive_eq_ok (isPositioned_cursor hpositioned),
    isConsecutive_eq_ok (isPositioned_cursor hpositioned'),
    sorted_aliasLines_withChildren hroot hperm]

theorem UnverifiedAction.isFollowedUp_withChildren (hroot : file.parsed.root.kind = .other name)
    (hperm : file.parsed.root.children.Perm children) (line : Int) :
    isFollowedUp (Assertion.linesUnder (file.withChildren children).cursor) line =
      isFollowedUp (Assertion.linesUnder file.cursor) line := by
  obtain ⟨calls, calls', hcalls, heq, heq'⟩ := TestFile.exists_calls_eq hroot hperm
  rw [isFollowedUp_linesUnder, isFollowedUp_linesUnder, heq, heq', List.any_map, List.any_map]
  exact hcalls.symm.any_eq

theorem Assertion.isRelatedBelow_withChildren (hroot : file.parsed.root.kind = .other name)
    (hperm : file.parsed.root.children.Perm children) (selector : String) (line : Int) :
    isRelatedBelow (file.withChildren children).cursor selector line =
      isRelatedBelow file.cursor selector line := by
  obtain ⟨calls, calls', hcalls, heq, heq'⟩ := TestFile.exists_calls_eq hroot hperm
  have hroot' : (file.withChildren children).parsed.root.kind = .other name := hroot
  have hrelated {root : Node} (hkind : root.kind = .other name) (call : Cursor) :
      isRelated selector (call.under [root]) = isRelated selector call := by
    unfold isRelated
    rw [isChained_under hkind]
    rfl
  unfold isRelatedBelow
  rw [heq, heq', List.any_map, List.any_map]
  simp only [Function.comp_def, hrelated hroot, hrelated hroot']
  exact hcalls.symm.any_eq

/-! ## Passes -/

theorem Checker.reportsDelay_withChildren (hroot : file.parsed.root.kind = .other name)
    (call : Cursor) (delay : Number) :
    Checker.asyncReliability.reportsDelay (file.withChildren children)
        (call.under [(file.withChildren children).parsed.root]) delay =
      Checker.asyncReliability.reportsDelay file (call.under [file.parsed.root]) delay := by
  have hroot' : (file.withChildren children).parsed.root.kind = .other name := hroot
  unfold reportsDelay
  rw [Retry.covers_under hroot, Retry.covers_under hroot']
  rfl

theorem Checker.isUnwritable_withChildren (hroot : file.parsed.root.kind = .other name)
    (call : Cursor) :
    isUnwritable (file.withChildren children) .asyncReliability
        (call.under [(file.withChildren children).parsed.root]) =
      isUnwritable file .asyncReliability (call.under [file.parsed.root]) := by
  unfold isUnwritable
  simp only [reportsDelay_withChildren hroot]
  rfl

theorem AliasWait.findings_withChildren (hroot : file.parsed.root.kind = .other name)
    (hperm : file.parsed.root.children.Perm children) (call : Cursor) (waited : String) :
    findings (file.withChildren children)
        (Wait.declaredAliases (file.withChildren children).cursor)
        (call.under [(file.withChildren children).parsed.root]) waited =
      findings file (Wait.declaredAliases file.cursor) (call.under [file.parsed.root]) waited := by
  unfold findings
  rw [Wait.sorted_aliasLines_withChildren hroot hperm,
    Wait.contains_declaredAliases_withChildren hroot hperm]
  rfl

theorem Checker.waitsAt_withChildren (hroot : file.parsed.root.kind = .other name)
    (hperm : file.parsed.root.children.Perm children) (call : Cursor) :
    waitsAt (file.withChildren children)
        (Wait.declaredAliases (file.withChildren children).cursor)
        (call.under [(file.withChildren children).parsed.root]) =
      waitsAt file (Wait.declaredAliases file.cursor) (call.under [file.parsed.root]) := by
  unfold waitsAt delayIssues
  simp only [reportsDelay_withChildren hroot, AliasWait.findings_withChildren hroot hperm]
  rfl

theorem Checker.isStopped_withChildren (hroot : file.parsed.root.kind = .other name)
    (hperm : file.parsed.root.children.Perm children) :
    isStopped (file.withChildren children) .asyncReliability =
      isStopped file .asyncReliability := by
  obtain ⟨calls, calls', hcalls, heq, heq'⟩ := TestFile.exists_calls_eq hroot hperm
  unfold isStopped
  rw [heq, heq', List.any_map, List.any_map]
  simp only [Function.comp_def, isUnwritable_withChildren hroot]
  exact hcalls.symm.any_eq

theorem Checker.waitsFound_perm (hroot : file.parsed.root.kind = .other name)
    (hperm : file.parsed.root.children.Perm children) :
    (waitsFound file).Perm (waitsFound (file.withChildren children)) := by
  obtain ⟨calls, calls', hcalls, heq, heq'⟩ := TestFile.exists_calls_eq hroot hperm
  unfold waitsFound
  rw [heq, heq', List.flatMap_map, List.flatMap_map]
  simp only [waitsAt_withChildren hroot hperm]
  exact hcalls.flatMap_right _

theorem ActionSite.sites_perm (hroot : file.parsed.root.kind = .other name)
    (hperm : file.parsed.root.children.Perm children) (object : String) :
    (sites file.parsed object).Perm (sites (file.withChildren children).parsed object) := by
  obtain ⟨calls, calls', hcalls, heq, heq'⟩ := TestFile.exists_calls_eq hroot hperm
  have hroot' : (file.withChildren children).parsed.root.kind = .other name := hroot
  have hsite (call : Cursor) (command : String) :
      ofCommand (file.withChildren children).parsed
          (call.under [(file.withChildren children).parsed.root]) command =
        ofCommand file.parsed (call.under [file.parsed.root]) command := by
    unfold ofCommand
    rw [Assertion.isChained_under hroot, Assertion.isChained_under hroot']
    rfl
  have hsites (call : Cursor) :
      ((command? object (call.under [(file.withChildren children).parsed.root]).node).map
        (ofCommand (file.withChildren children).parsed
          (call.under [(file.withChildren children).parsed.root]))) =
      (command? object (call.under [file.parsed.root]).node).map
        (ofCommand file.parsed (call.under [file.parsed.root])) :=
    Option.map_congr fun command _ => hsite call command
  unfold sites
  rw [show file.parsed.cursor.calls = _ from heq,
    show (file.withChildren children).parsed.cursor.calls = _ from heq', List.filterMap_map,
    List.filterMap_map]
  simp only [Function.comp_def, hsites]
  exact hcalls.filterMap _

theorem UnverifiedAction.isSettled_withChildren (hroot : file.parsed.root.kind = .other name)
    (hperm : file.parsed.root.children.Perm children) (site : ActionSite) :
    isSettled (file.withChildren children) site = isSettled file site := by
  unfold isSettled
  rw [isFollowedUp_withChildren hroot hperm]
  simp only [Assertion.isRelatedBelow_withChildren hroot hperm]
  rfl

theorem UnverifiedAction.found_perm (hroot : file.parsed.root.kind = .other name)
    (hperm : file.parsed.root.children.Perm children) :
    (found file).Perm (found (file.withChildren children)) := by
  unfold found
  simp only [isSettled_withChildren hroot hperm]
  exact ((ActionSite.sites_perm hroot hperm libraryObject).filter _).map _

theorem BrokenChain.issues_perm (hroot : file.parsed.root.kind = .other name)
    (hperm : file.parsed.root.children.Perm children) :
    (issues file).Perm (issues (file.withChildren children)) := by
  have hroot' : (file.withChildren children).parsed.root.kind = .other name := hroot
  -- The root is no broken chain itself, so only what is below it counts.
  have hplaces {root : Node} (hkind : root.kind = .other name) :
      (Cursor.ofRoot root).walk.filterMap brokenAt? =
        (root.children.flatMap fun child => (Cursor.ofRoot child).walk).filterMap brokenAt? := by
    rw [Cursor.walk_ofRoot, List.filterMap_cons_none (brokenAt?_root hkind), List.filterMap_map]
    exact List.filterMap_congr fun place _ => brokenAt?_under hkind place
  unfold issues TestFile.cursor Parsed.cursor
  rw [hplaces hroot, hplaces hroot']
  exact ((hperm.flatMap_right _).filterMap _).map _

/-- A wait for an alias is judged alike in both orders. -/
theorem AliasWait.issues_withChildren (hpositioned : file.parsed.root.isPositioned)
    (hroot : file.parsed.root.kind = .other name)
    (hperm : file.parsed.root.children.Perm children) (call : Cursor) (waited : String) :
    issues (file.withChildren children) (Wait.declaredAliases (file.withChildren children).cursor)
        call waited =
      issues file (Wait.declaredAliases file.cursor) call waited := by
  unfold issues
  rw [Wait.contains_declaredAliases_withChildren hroot hperm]
  simp only [Wait.isConsecutive_withChildren hpositioned hroot hperm]
  rfl

end

/-- A wait counts as undeclared exactly if no call anywhere in the file declares its alias. -/
theorem AliasWait.issues_eq_undeclared_iff (file : TestFile) (call : Cursor) (waited : String) :
    issues file (Wait.declaredAliases file.cursor) call waited =
        .ok [file.issueAt (undeclaredFinding waited) call.node] ↔
      ¬ ∃ declaring ∈ file.cursor.calls, Wait.declaredAlias? declaring.node = some waited := by
  rw [← Wait.mem_declaredAliases]
  unfold issues
  by_cases hdeclared : waited ∈ Wait.declaredAliases file.cursor
  · refine iff_of_false (fun h => ?_) (not_not_intro hdeclared)
    rw [if_neg (by simpa using hdeclared)] at h
    by_cases hbackground : Names.isBackgroundAlias waited
    · rw [if_pos hbackground] at h
      cases h
    · rw [if_neg hbackground] at h
      cases hline : call.node.startLine with
      | error fault =>
        rw [hline] at h
        cases h
      | ok line =>
        rw [hline] at h
        simp only [bind, Except.bind] at h
        split at h
        · cases h
        · split at h
          · cases h
          -- What is said of a declared alias has another severity.
          · have hseverity := congrArg (·.map (List.map Issue.severity)) h
            cases hseverity
  · refine iff_of_true ?_ hdeclared
    rw [if_pos (by simpa using hdeclared)]
    rfl

/-- Whatever the order of the top level of a positioned source, each pass reports the same issues, and
whether an alias counts as declared does not depend on where in the source that is done. -/
theorem Checker.passes_withChildren {file : TestFile}
    (hpositioned : file.parsed.root.isPositioned) {name : String}
    (hroot : file.parsed.root.kind = .other name) {children : List Node}
    (hperm : file.parsed.root.children.Perm children) :
    SameUpToOrder (waitPass file) (waitPass (file.withChildren children)) ∧
    SameUpToOrder (UnverifiedAction.pass file)
      (UnverifiedAction.pass (file.withChildren children)) ∧
    (BrokenChain.issues file).Perm (BrokenChain.issues (file.withChildren children)) ∧
    SameUpToOrder (Checker.asyncReliability.issues file)
      (Checker.asyncReliability.issues (file.withChildren children)) ∧
    (∀ call waited,
      AliasWait.issues (file.withChildren children)
          (Wait.declaredAliases (file.withChildren children).cursor) call waited =
        AliasWait.issues file (Wait.declaredAliases file.cursor) call waited) ∧
    ∀ call waited,
      AliasWait.issues file (Wait.declaredAliases file.cursor) call waited =
          .ok [file.issueAt (AliasWait.undeclaredFinding waited) call.node] ↔
        ¬ ∃ declaring ∈ file.cursor.calls, Wait.declaredAlias? declaring.node = some waited := by
  have hpositioned' := TestFile.isPositioned_withChildren hpositioned hperm
  have hwaits := waitsFound_perm hroot hperm
  have hactions := UnverifiedAction.found_perm hroot hperm
  have hchains := BrokenChain.issues_perm hroot hperm
  -- A pass is a list of issues that is given unless the pass is stopped, and no order stops it.
  refine ⟨?_, ?_, hchains, ?_, AliasWait.issues_withChildren hpositioned hroot hperm,
    AliasWait.issues_eq_undeclared_iff file⟩
  · rw [waitPass_eq hpositioned, waitPass_eq hpositioned', isStopped_withChildren hroot hperm]
    exact .guarded _ _ hwaits
  · rw [UnverifiedAction.pass_eq_ok hpositioned, UnverifiedAction.pass_eq_ok hpositioned']
    exact .ok hactions
  · rw [issues_eq hpositioned, issues_eq hpositioned', isStopped_withChildren hroot hperm]
    exact .guarded _ _ ((hwaits.append hactions).append hchains)

namespace Sample

/-- A wait for an alias that is declared below it. -/
def aliasSource : String :=
  "cy.wait('@x')\ncy.get('a').as('x')"

def aliasOutline : Outline :=
  piece (.other "program") none 0 33 [
    methodCall none 0 3 7 13 (piece .identifier (some .object) 0 2 [])
      [piece .string none 8 12 []],
    methodCall none 14 26 28 33
      (methodCall (some .object) 14 17 20 25 (piece .identifier (some .object) 14 16 [])
        [piece .string none 21 24 []])
      [piece .string none 29 32 []]]

def aliasFile : TestFile :=
  .ofOutline "a.cy.js" aliasSource defaultGrammar aliasOutline

end Sample

/-- With the declaration put before the wait, the issue about the wait stays the same. -/
theorem Checker.passes_withChildren_reverse :
    let file := Sample.aliasFile
    let other := file.withChildren file.parsed.root.children.reverse
    file.parsed.root.isPositioned ∧ file.parsed.root.kind = .other "program" ∧
    file.parsed.root.children.Perm file.parsed.root.children.reverse ∧
    (waitPass file).toOption.map List.length = some 1 ∧
    SameUpToOrder (waitPass file) (waitPass other) ∧
    SameUpToOrder (UnverifiedAction.pass file) (UnverifiedAction.pass other) ∧
    (BrokenChain.issues file).Perm (BrokenChain.issues other) := by
  intro file other
  have hpositioned : file.parsed.root.isPositioned := by decide +kernel
  have hperm := (List.reverse_perm file.parsed.root.children).symm
  obtain ⟨hwaits, hactions, hchains, -⟩ := passes_withChildren hpositioned rfl hperm
  exact ⟨hpositioned, rfl, hperm, by decide +kernel, hwaits, hactions, hchains⟩

end FlakeLint
