-- SUMMARY: Related assertions: on chains as the grammar shapes them, the lines of assertions make the search for one needless.
import FlakeLint.Proofs.Passes.Order
import FlakeLint.Proofs.Tree.Around

/-!
# Related assertions

An action counts as verified if an assertion on a related selector starts within
five lines. In chains as the grammar shapes them every link starts where the chain
starts, so the assertion that such a chain goes on with starts on the same line as
the chain. The check for assertions of any kind on the next ten lines has found it
already.
-/

namespace FlakeLint

-- ---------------------------------------------------------------------------
-- Chains as the grammar shapes them
-- ---------------------------------------------------------------------------

namespace Cursor

/-- How the grammar links the calls and member expressions of a chain. -/
structure IsLinked (place : Cursor) : Prop where
  /-- A call starts where its callee starts. -/
  call_start : place.kind = .call →
    ∀ callee ∈ place.node.callee?, place.node.start = callee.start
  /-- A member expression starts where its object starts. -/
  member_start : place.kind = .member →
    ∀ object ∈ place.node.object?, place.node.start = object.start
  /-- A call or member expression right below a member expression is the object of that. -/
  is_object : ∀ parent ∈ place.parent?, parent.kind = .member →
    place.kind = .call ∨ place.kind = .member → parent.node.object? = some place.node
  /-- A member expression with the name of an assertion is the callee of a call. -/
  is_callee : place.kind = .member →
    place.node.propertyName?.any Assertion.relatedMethods.contains = true →
    ∃ call ∈ place.parent?, call.kind = .call ∧ call.node.callee? = some place.node

instance (place : Cursor) : Decidable place.IsLinked :=
  decidable_of_iff
    ((place.kind = .call → ∀ callee ∈ place.node.callee?, place.node.start = callee.start) ∧
      (place.kind = .member → ∀ object ∈ place.node.object?, place.node.start = object.start) ∧
      (∀ parent ∈ place.parent?, parent.kind = .member →
        place.kind = .call ∨ place.kind = .member → parent.node.object? = some place.node) ∧
      (place.kind = .member →
        place.node.propertyName?.any Assertion.relatedMethods.contains = true →
        ∃ call ∈ place.parent?, call.kind = .call ∧ call.node.callee? = some place.node))
    ⟨fun ⟨h₁, h₂, h₃, h₄⟩ => ⟨h₁, h₂, h₃, h₄⟩, fun ⟨h₁, h₂, h₃, h₄⟩ => ⟨h₁, h₂, h₃, h₄⟩⟩

end Cursor

-- ---------------------------------------------------------------------------
-- Up the chain
-- ---------------------------------------------------------------------------

namespace Assertion

theorem isAssertion_of_callee {call callee : Node} (hcallee : call.callee? = some callee)
    (hmember : callee.kind = .member)
    (hname : callee.propertyName?.any relatedMethods.contains = true) :
    isAssertion call = true := by
  have hincluded : ∀ name, relatedMethods.contains name = true → methods.contains name = true := by
    intro name h
    simp only [relatedMethods, methods, List.contains_iff_mem, List.mem_cons, List.not_mem_nil,
      or_false] at h ⊢
    tauto
  have hmethod : call.methodName? = callee.propertyName? := by
    unfold Node.methodName? Node.memberCallee?
    rw [hcallee, Option.filter_some, if_pos (decide_eq_true hmember), Option.bind_some]
  unfold isAssertion
  rw [hmethod, Bool.or_eq_true]
  left
  obtain ⟨name, hsome, hrelated⟩ := (Option.any_eq_true _ _).1 hname
  exact (Option.any_eq_true _ _).2 ⟨name, hsome, hincluded name hrelated⟩

variable {root : Node}

/-- Each link of a chain starts where the chain starts, and so does the call of an assertion that the
chain goes on with. -/
theorem exists_assertion_of_isChained
    (hlinked : ∀ place ∈ (Cursor.ofRoot root).walk, place.IsLinked) {place : Cursor}
    (hplace : place ∈ (Cursor.ofRoot root).walk) (hkind : place.kind = .call ∨ place.kind = .member)
    (hchained : isChained relatedMethods place = true) :
    ∃ call ∈ (Cursor.ofRoot root).calls, isAssertion call.node = true ∧
      call.node.start = place.node.start := by
  obtain ⟨n, above⟩ := place
  unfold isChained at hchained
  induction above generalizing n with
  | nil => simp at hchained
  | cons m above ih =>
    rw [List.takeWhile_cons] at hchained
    split at hchained
    · next hm =>
      have hmember : (Cursor.mk m above).kind = .member := of_decide_eq_true hm
      have hparent := Cursor.parent?_mem_walk_ofRoot hplace rfl
      have hobject := (hlinked _ hplace).is_object _ rfl hmember hkind
      have hstart := (hlinked _ hparent).member_start hmember n hobject
      rw [List.any_cons, Bool.or_eq_true] at hchained
      rcases hchained with hname | hrest
      · obtain ⟨call, hcall, hiscall, hcallee⟩ := (hlinked _ hparent).is_callee hmember hname
        have hmem := Cursor.parent?_mem_walk_ofRoot hparent hcall
        refine ⟨call, List.mem_filter.2 ⟨hmem, decide_eq_true hiscall⟩,
          isAssertion_of_callee hcallee hmember hname, ?_⟩
        exact ((hlinked _ hmem).call_start hiscall m hcallee).trans hstart
      · obtain ⟨call, hcall, hassertion, hsame⟩ := ih m hparent (.inr hmember) hrest
        exact ⟨call, hcall, hassertion, hsame.trans hstart⟩
    · cases hchained

/-- A related assertion below a line is an assertion on one of the lines that follow it. -/
theorem isFollowedUp_of_isRelatedBelow
    (hlinked : ∀ place ∈ (Cursor.ofRoot root).walk, place.IsLinked) {selector : String} {line : Int}
    (h : isRelatedBelow (.ofRoot root) selector line = true) :
    UnverifiedAction.isFollowedUp (linesUnder (.ofRoot root)) line = true := by
  obtain ⟨call, hcall, hrelated⟩ := List.any_eq_true.1 h
  simp only [isRelated, Bool.and_eq_true, decide_eq_true_eq] at hrelated
  obtain ⟨⟨hafter, hwithin⟩, -, hchained⟩ := hrelated
  obtain ⟨hwalk, hkind⟩ := List.mem_filter.1 hcall
  obtain ⟨assertion, hmem, hasserts, hstart⟩ :=
    exists_assertion_of_isChained hlinked hwalk (.inl (of_decide_eq_true hkind)) hchained
  have hline : assertion.node.line = call.node.line := by
    unfold Node.line
    rw [hstart]
  have hsite : assertion.node ∈ sitesOf assertion.node := by
    simp [sitesOf, hasserts]
  rw [UnverifiedAction.isFollowedUp_linesUnder, List.any_eq_true]
  refine ⟨assertion, hmem, List.any_eq_true.2 ⟨assertion.node, hsite, ?_⟩⟩
  rw [hline, Bool.and_eq_true, decide_eq_true_eq, decide_eq_true_eq]
  -- The window for related assertions is the smaller one.
  unfold relatedWindow at hwithin
  unfold UnverifiedAction.followUpWindow
  omega

end Assertion

-- ---------------------------------------------------------------------------
-- Actions
-- ---------------------------------------------------------------------------

namespace UnverifiedAction

/-- Is an action verified by the lines of assertions alone, or excused from it? -/
def isVerifiedByLines (file : TestFile) (assertionLines : List Nat) (site : ActionSite) : Bool :=
  isFollowedUp assertionLines site.line ||
    Setup.excuses site.command site.selector file.lines site.line

variable {file : TestFile}

theorem isVerified_eq_ok (hpositioned : file.parsed.root.isPositioned)
    (hlinked : ∀ place ∈ file.cursor.walk, place.IsLinked) (site : ActionSite) :
    isVerified file (Assertion.linesUnder file.cursor) site =
      .ok (isVerifiedByLines file (Assertion.linesUnder file.cursor) site) := by
  unfold isVerified isVerifiedByLines
  cases hfollowed : isFollowedUp (Assertion.linesUnder file.cursor) site.line with
  | true => rfl
  | false =>
    have hunrelated (selector : String) :
        Assertion.hasRelated file.cursor selector site.line = .ok false := by
      have hsearched : (Assertion.searched file.cursor selector site.line).any Node.isUnplaced =
          false :=
        Node.any_isUnplaced_eq_false fun n hn =>
          Assertion.isPositioned_of_mem_searched (isPositioned_cursor hpositioned) hn
      have hbelow : Assertion.isRelatedBelow file.cursor selector site.line = false := by
        refine Bool.eq_false_iff.2 fun hrelated => ?_
        have htrue := Assertion.isFollowedUp_of_isRelatedBelow hlinked hrelated
        exact Bool.false_ne_true (hfollowed.symm.trans htrue)
      rw [Assertion.hasRelated_guarded, hsearched, hbelow]
      rfl
    cases site.selector with
    | none => rfl
    | some selector =>
      simp only [Bool.false_eq_true, if_false, hunrelated]
      by_cases hempty : selector = ""
      · rw [if_pos hempty]
        rfl
      · rw [if_neg hempty]
        rfl

/-- On positioned trees with chains as the grammar shapes them, the search for a related assertion
changes neither the verdict on any action nor what is reported. -/
theorem issues_without_relatedness (hpositioned : file.parsed.root.isPositioned)
    (hlinked : ∀ place ∈ file.cursor.walk, place.IsLinked) :
    ∃ assertionLines sites,
      Assertion.lines file.cursor = .ok assertionLines ∧
      ActionSite.find file.parsed libraryObject = .ok sites ∧
      (∀ site, isVerified file assertionLines site =
        .ok (isVerifiedByLines file assertionLines site)) ∧
      issues file assertionLines sites =
        .ok ((sites.filter fun site =>
            !(site.isAsserted || isVerifiedByLines file assertionLines site)).map fun site =>
          (finding site.command).issue file.lines (some site.location)) := by
  have hverified := isVerified_eq_ok hpositioned hlinked
  refine ⟨_, _, Assertion.lines_eq_ok (isPositioned_cursor hpositioned),
    ActionSite.find_eq_ok hpositioned libraryObject, hverified, ?_⟩
  have hunsettled : ∀ site ∈ ActionSite.sites file.parsed libraryObject,
      (do
        if site.isAsserted then return false
        return !(← isVerified file (Assertion.linesUnder file.cursor) site) : Except Fault Bool) =
      .ok !(site.isAsserted ||
        isVerifiedByLines file (Assertion.linesUnder file.cursor) site) := by
    intro site _
    cases site.isAsserted with
    | true => rfl
    | false =>
      simp only [Bool.false_eq_true, if_false, hverified]
      rfl
  unfold issues
  rw [filterM_eq_ok_filter hunsettled]
  rfl

end UnverifiedAction

namespace Sample

/-- A click, and on the next line an assertion on the same selector. -/
def clickThenCheck : TestFile :=
  .ofOutline "a.cy.js" "cy.get('#a').click()\ncy.get('#a').should('exist')" defaultGrammar <|
    piece (.other "program") none 0 49 [
      methodCall none 0 13 18 20
        (methodCall (some .object) 0 3 6 12 (piece .identifier (some .object) 0 2 [])
          [piece .string none 7 11 []])
        [],
      methodCall none 21 34 40 49
        (methodCall (some .object) 21 24 27 33 (piece .identifier (some .object) 21 23 [])
          [piece .string none 28 32 []])
        [piece .string none 41 48 []]]

end Sample

/-- A related assertion follows the click, and the lines of assertions alone tell that it is verified. -/
theorem UnverifiedAction.issues_of_click_then_check :
    Sample.clickThenCheck.parsed.root.isPositioned ∧
    (∀ place ∈ Sample.clickThenCheck.cursor.walk, place.IsLinked) ∧
    Assertion.hasRelated Sample.clickThenCheck.cursor "#a" 1 = .ok true ∧
    ∃ assertionLines sites,
      Assertion.lines Sample.clickThenCheck.cursor = .ok assertionLines ∧
      ActionSite.find Sample.clickThenCheck.parsed libraryObject = .ok sites ∧
      sites.length = 1 ∧
      ∀ site ∈ sites, isVerified Sample.clickThenCheck assertionLines site = .ok true := by
  have hpositioned : Sample.clickThenCheck.parsed.root.isPositioned := by decide +kernel
  have hlinked : ∀ place ∈ Sample.clickThenCheck.cursor.walk, place.IsLinked := by decide +kernel
  obtain ⟨assertionLines, sites, hlines, hsites, hverified, -⟩ :=
    issues_without_relatedness hpositioned hlinked
  have hcount : (ActionSite.find Sample.clickThenCheck.parsed libraryObject).toOption.map
      (fun sites => sites.map ActionSite.line) = some [1] := by decide +kernel
  have htwo : Assertion.lines Sample.clickThenCheck.cursor = .ok [2] := by decide +kernel
  obtain rfl : [2] = assertionLines := Except.ok.inj (htwo.symm.trans hlines)
  have hsame : sites.map ActionSite.line = [1] := by
    rw [hsites] at hcount
    exact Option.some_inj.1 hcount
  refine ⟨hpositioned, hlinked, by decide +kernel, [2], sites, hlines, hsites, ?_, ?_⟩
  · rw [← List.length_map (f := ActionSite.line), hsame]
    rfl
  · intro site hsite
    have hline : site.line = 1 := by
      have hmem := List.mem_map_of_mem (f := ActionSite.line) hsite
      rwa [hsame, List.mem_singleton] at hmem
    rw [hverified, isVerifiedByLines, hline]
    rfl

end FlakeLint
