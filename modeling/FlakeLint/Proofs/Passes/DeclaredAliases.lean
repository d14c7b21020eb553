-- SUMMARY: Waits for declared aliases: which of them are reported, whatever stands behind them.
import FlakeLint.Proofs.Passes.Order
import FlakeLint.Proofs.Passes.WaitRuns

/-!
# Waits for declared aliases

The advice about a wait for a declared alias is to put an assertion after it. Where
the assertions of a file stand is not asked about waits, though: such a wait is
reported unless its alias is a background one or the wait belongs to a run, and the
assertion that the advice asks for does not make the issue go away.
-/

namespace FlakeLint

variable {file : TestFile} {call : Cursor} {waited : String}

/-- What a call waits for is a string, so it has no delay. -/
theorem Wait.delay?_eq_none {call : Node} (h : alias? libraryObject call = some waited) :
    Checker.asyncReliability.delay? call = none := by
  unfold alias? at h
  split at h
  · obtain ⟨hvalue, -⟩ := Option.filter_eq_some_iff.1 h
    obtain ⟨argument, hargument, hstring⟩ := Option.bind_eq_some_iff.1 hvalue
    have hkind : argument.kind = .string := by
      unfold Node.stringValue? at hstring
      split at hstring
      · assumption
      · cases hstring
    simp [Checker.delay?, hargument, Node.numberValue?, hkind]
  · cases h

theorem Wait.node_mem_aliasWaits (hcall : call ∈ file.cursor.calls)
    (halias : alias? libraryObject call.node = some waited) :
    call.node ∈ aliasWaits file.cursor libraryObject :=
  List.mem_map_of_mem (List.mem_filter.2 ⟨hcall, by rw [halias]; rfl⟩)

namespace AliasWait

/-- A declared alias leaves two excuses. -/
theorem findings_of_declared (hdeclared : waited ∈ Wait.declaredAliases file.cursor) :
    findings file (Wait.declaredAliases file.cursor) call waited =
      if Names.isBackgroundAlias waited ||
          Wait.inRun call.node.line 1 (Wait.aliasLines file.cursor libraryObject).mergeSort then []
      else [declaredFinding waited] := by
  unfold findings
  rw [if_neg (by simpa using hdeclared)]

theorem waitIssues_eq_ok (halias : Wait.alias? libraryObject call.node = some waited)
    (hcall : call ∈ file.cursor.calls)
    (hplaced : ∀ wait ∈ Wait.aliasWaits file.cursor libraryObject, wait.isUnplaced = false)
    (declared : List String) :
    Checker.waitIssues file declared call =
      .ok ((findings file declared call waited).map fun finding =>
        file.issueAt finding call.node) := by
  have hdelay := Wait.delay?_eq_none halias
  have hasked : (Checker.askedByWait file declared call).any Node.isUnplaced = false := by
    refine List.any_eq_false.2 fun n hn => Bool.eq_false_iff.1 (hplaced n ?_)
    simp only [Checker.askedByWait, hdelay, halias, Option.map_some, Option.getD_some, asked] at hn
    split at hn
    · rcases List.mem_cons.1 hn with rfl | hn
      · exact Wait.node_mem_aliasWaits hcall halias
      · exact hn
    · cases hn
  rw [Checker.waitIssues_guarded, hasked]
  simp [Checker.isUnwritable, Checker.waitsAt, hdelay, halias]

end AliasWait

/-- Where all waits for aliases have positions, one for a declared alias is reported exactly if its
alias is no background one and it belongs to no run. So the rule that an assertion on the next ten
lines settles it as well holds of all waits but those that are followed up and have no other excuse. -/
theorem Checker.waitIssues_of_declared_alias (hcall : call ∈ file.cursor.calls)
    (halias : Wait.alias? libraryObject call.node = some waited)
    (hdeclared : ∃ declaring ∈ file.cursor.calls,
      Wait.declaredAlias? declaring.node = some waited)
    (hplaced : ∀ wait ∈ Wait.aliasWaits file.cursor libraryObject, wait.isUnplaced = false) :
    ∃ reported inRun,
      waitIssues file (Wait.declaredAliases file.cursor) call = .ok reported ∧
      Wait.isConsecutive file.cursor call.node.line libraryObject = .ok inRun ∧
      (reported = [] ∨ reported = [file.issueAt (AliasWait.declaredFinding waited) call.node]) ∧
      (reported ≠ [] ↔ Names.isBackgroundAlias waited = false ∧ inRun = false) ∧
      ∀ assertionLines, Assertion.lines file.cursor = .ok assertionLines →
        ((reported ≠ [] ↔ Names.isBackgroundAlias waited = false ∧ inRun = false ∧
            UnverifiedAction.isFollowedUp assertionLines call.node.line = false) ↔
          (UnverifiedAction.isFollowedUp assertionLines call.node.line = true →
            Names.isBackgroundAlias waited = true ∨ inRun = true)) := by
  have hissues := AliasWait.waitIssues_eq_ok halias hcall hplaced (Wait.declaredAliases file.cursor)
  rw [AliasWait.findings_of_declared (Wait.mem_declaredAliases.2 hdeclared)] at hissues
  refine ⟨_, _, hissues, Wait.isConsecutive_of_placed hplaced call.node.line, ?_⟩
  cases Names.isBackgroundAlias waited with
  | true => simp
  | false =>
    cases Wait.inRun call.node.line 1 (Wait.aliasLines file.cursor libraryObject).mergeSort with
    | true => simp
    | false => simp

namespace Sample

/-- A wait for a declared alias with an assertion on the line below it. -/
def followedWait : TestFile :=
  .ofOutline "a.cy.js" "cy.intercept('/a').as('x')\ncy.wait('@x')\ncy.get('h').should('exist')"
      defaultGrammar <|
    piece (.other "program") none 0 68 [
      methodCall none 0 19 21 26
        (methodCall (some .object) 0 3 12 18 (piece .identifier (some .object) 0 2 [])
          [piece .string none 13 17 []])
        [piece .string none 22 25 []],
      letterWait 27,
      methodCall none 41 53 59 68
        (methodCall (some .object) 41 44 47 52 (piece .identifier (some .object) 41 43 [])
          [piece .string none 48 51 []])
        [piece .string none 60 67 []]]

/-- The place of the wait in it, behind the two calls of the declaration. -/
def followedWaitCall : Cursor :=
  followedWait.cursor.calls.get ⟨2, by decide +kernel⟩

end Sample

/-- The assertion stands right below the wait, and the wait is reported. -/
theorem Checker.waitIssues_of_followed_wait :
    Sample.followedWaitCall ∈ Sample.followedWait.cursor.calls ∧
    Wait.alias? libraryObject Sample.followedWaitCall.node = some "@x" ∧
    Assertion.lines Sample.followedWait.cursor = .ok [3] ∧
    UnverifiedAction.isFollowedUp [3] Sample.followedWaitCall.node.line = true ∧
    ∃ reported,
      waitIssues Sample.followedWait (Wait.declaredAliases Sample.followedWait.cursor)
        Sample.followedWaitCall = .ok reported ∧
      reported = [Sample.followedWait.issueAt (AliasWait.declaredFinding "@x")
        Sample.followedWaitCall.node] := by
  have hcall : Sample.followedWaitCall ∈ Sample.followedWait.cursor.calls := List.get_mem _ _
  have halias : Wait.alias? libraryObject Sample.followedWaitCall.node = some "@x" := by
    decide +kernel
  obtain ⟨reported, inRun, hreported, hrun, hone, hiff, -⟩ :=
    waitIssues_of_declared_alias hcall halias (by decide +kernel) (by decide +kernel)
  refine ⟨hcall, halias, by decide +kernel, by decide +kernel, reported, hreported, ?_⟩
  have halone : Wait.isConsecutive Sample.followedWait.cursor Sample.followedWaitCall.node.line
      libraryObject = .ok false := by decide +kernel
  obtain rfl : false = inRun := Except.ok.inj (halone.symm.trans hrun)
  exact hone.resolve_left (hiff.2 ⟨by decide +kernel, rfl⟩)

end FlakeLint
