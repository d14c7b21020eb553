-- SUMMARY: Functions named for retrying: which names count, and what that means for the waits inside.
import FlakeLint.Proofs.Passes.Issues
import FlakeLint.Proofs.Text.Patterns
import FlakeLint.Proofs.Tree.Around
import FlakeLint.Proofs.Tree.Outline

/-!
# Functions named for retrying

A function gets its name by a declaration or from the variable that it initialises,
through any parentheses. If the name speaks of retrying, everything inside the
function is retry code, at any depth, and no fixed wait in it is reported. The target
of an assignment gives no name: a function that is assigned counts by its own name,
or not at all.
-/

namespace FlakeLint

variable {place outer : Cursor}

theorem Kind.isFunctionDeclaration_eq_false {kind : Kind} (h : kind.isCallback = true) :
    kind.isFunctionDeclaration = false := by
  cases kind <;> first | rfl | cases h

-- ---------------------------------------------------------------------------
-- Through parentheses
-- ---------------------------------------------------------------------------

namespace Cursor

/-- Between the place and the outer one there are parentheses only. -/
def StandsIn (place outer : Cursor) : Prop :=
  outer.kind ≠ .parenthesized ∧
    ∃ between, place.above = between ++ outer.path ∧ ∀ n ∈ between, n.kind = .parenthesized

theorem binder?_eq_some_iff : place.binder? = some outer ↔ place.StandsIn outer := by
  have hnearest : place.nearest? (fun kind => kind ≠ .parenthesized) = some outer ↔ _ :=
    nearest?_eq_some_iff_exists
  simp only [decide_eq_true_eq, decide_eq_false_iff_not, not_not] at hnearest
  exact hnearest

theorem variableName?_of_standsIn (h : place.StandsIn outer) :
    place.variableName? =
      if outer.kind = .declarator then (outer.node.child? .name).bind Node.identifier? else none := by
  unfold variableName?
  rw [binder?_eq_some_iff.2 h]

theorem passedTo?_of_standsIn (h : place.StandsIn outer) :
    place.passedTo? =
      if outer.kind = .arguments then outer.parent?.filter fun call => call.kind = .call
      else none := by
  unfold passedTo?
  rw [binder?_eq_some_iff.2 h]

theorem functionName_of_isCallback (h : place.kind.isCallback = true) :
    place.functionName =
      match place.variableName? with
      | some name => if name = "" then place.node.ownName else name
      | none => place.node.ownName := by
  unfold functionName
  rw [Kind.isFunctionDeclaration_eq_false h]
  rfl

end Cursor

-- ---------------------------------------------------------------------------
-- Names of functions
-- ---------------------------------------------------------------------------

namespace Retry

variable {function : Cursor} {name target : String}

/-- One of the words stands in the name, whatever the case of its letters. -/
def SpeaksOfRetrying (name : String) : Prop :=
  ∃ word ∈ ["retry", "wait", "poll", "until", "repeat", "attempt", "check"],
    ∃ piece, piece <:+: name.toList ∧ Text.ReadsLike word.toList piece

/-- An ending behind the word changes nothing. -/
theorem isRetryName_iff : Names.isRetryName name = true ↔ SpeaksOfRetrying name := by
  have hmentions : Names.isRetryName name = Text.mentions Names.retryWords name.toList :=
    Text.occurs_map _ _
  rw [hmentions]
  exact Text.mentions_iff

/-- How a function gets its name. -/
inductive IsCalled (function : Cursor) : String → Prop
  | declared {name : Node} (kind : function.kind.isFunctionDeclaration = true)
      (child : function.node.child? .name = some name) : IsCalled function name.text
  | initialises {binder : Cursor} {name : Node} (kind : function.kind.isCallback = true)
      (stands : function.StandsIn binder) (declarator : binder.kind = .declarator)
      (child : binder.node.child? .name = some name) (identifier : name.kind = .identifier) :
      IsCalled function name.text

theorem isCalled_of_variableName? (hkind : function.kind.isCallback = true)
    (h : function.variableName? = some name) : IsCalled function name := by
  unfold Cursor.variableName? at h
  split at h
  · next binder hbinder =>
    split at h
    · next hdeclarator =>
      obtain ⟨child, hchild, h⟩ := Option.bind_eq_some_iff.1 h
      unfold Node.identifier? at h
      split at h
      · next hidentifier =>
        rw [← Option.some_inj.1 h]
        exact .initialises hkind (Cursor.binder?_eq_some_iff.1 hbinder) hdeclarator hchild hidentifier
      · cases h
    · cases h
  · cases h

/-- The function is assigned to the identifier with this name. -/
def IsAssignedTo (function : Cursor) (target : String) : Prop :=
  function.kind.isCallback = true ∧
    ∃ binder, function.StandsIn binder ∧ binder.kind = .assignment ∧
      ∃ left, binder.node.child? (.other "left") = some left ∧ left.kind = .identifier ∧
        left.text = target

theorem functionName_of_isCalled (h : IsCalled function name) (hne : name ≠ "") :
    function.functionName = name := by
  cases h with
  | declared hkind hname =>
    unfold Cursor.functionName
    rw [if_pos hkind, Node.ownName, hname]
  | initialises hkind hstands hdeclarator hname hidentifier =>
    rw [Cursor.functionName_of_isCallback hkind, Cursor.variableName?_of_standsIn hstands,
      if_pos hdeclarator, hname, Option.bind_some, Node.identifier?, if_pos hidentifier]
    exact if_neg hne

/-- An assigned function has the name that it carries itself. -/
theorem functionName_of_isAssignedTo (h : IsAssignedTo function target) :
    function.functionName = function.node.ownName := by
  obtain ⟨hkind, binder, hstands, hassignment, -⟩ := h
  rw [Cursor.functionName_of_isCallback hkind, Cursor.variableName?_of_standsIn hstands,
    if_neg (by simp [hassignment])]

-- ---------------------------------------------------------------------------
-- Retry code
-- ---------------------------------------------------------------------------

theorem covers_iff {object : String} :
    covers object place = true ↔
      ∃ around, (around = place ∨ around ∈ place.ancestors) ∧ marks object around = true := by
  unfold covers
  rw [Bool.or_eq_true, List.any_eq_true]
  simp only [or_and_right, exists_or, exists_eq_left]

theorem marks_of_isCalled (h : IsCalled function name) (hretry : Names.isRetryName name = true)
    (object : String) : marks object function = true := by
  have hfunction : function.kind.isFunction = true := by
    cases h with
    | declared hkind _ => exact Bool.or_eq_true_iff.2 (.inr hkind)
    | initialises hkind _ _ _ _ => exact Bool.or_eq_true_iff.2 (.inl hkind)
  have hne : name ≠ "" := by
    rintro rfl
    revert hretry
    decide
  unfold marks
  rw [functionName_of_isCalled h hne, hretry, hfunction, Bool.true_or, Bool.and_true, Bool.or_true,
    Bool.true_or, Bool.true_or]

theorem marks_of_isCallback (h : function.kind.isCallback = true) (object : String) :
    marks object function = (Names.isRetryName function.functionName || isPassedOn function) := by
  have hfunction : function.kind.isFunction = true := Bool.or_eq_true_iff.2 (.inl h)
  have hplain : function.kind.isLoop = false ∧ function.kind ≠ .call := by
    cases hkind : function.kind <;> rw [hkind] at h <;> first | decide | cases h
  have hcall : function.node.kind ≠ .call := hplain.2
  unfold marks Node.isCallOf Node.isCallOn
  simp [hfunction, hplain, hcall, h]

/-- A function that is assigned counts by its own name only, whatever the target is called. -/
theorem marks_of_isAssignedTo (h : IsAssignedTo function target) (object : String) :
    marks object function = Names.isRetryName function.node.ownName := by
  have hname := functionName_of_isAssignedTo h
  obtain ⟨hkind, binder, hstands, hassignment, -⟩ := h
  have hpassed : isPassedOn function = false := by
    unfold isPassedOn
    rw [Cursor.passedTo?_of_standsIn hstands, if_neg (by simp [hassignment])]
    rfl
  rw [marks_of_isCallback hkind, hname, hpassed, Bool.or_false]

/-- Everything inside a function whose name speaks of retrying is retry code. -/
theorem covers_of_isCalled (hplace : place ∈ function.walk) (h : IsCalled function name)
    (hretry : Names.isRetryName name = true) (object : String) : covers object place = true := by
  refine covers_iff.2 ⟨function, ?_, marks_of_isCalled h hretry object⟩
  exact (Cursor.eq_or_mem_ancestors_of_mem_walk hplace).imp_left Eq.symm

/-- Inside a function that is assigned, its own name or something else around decides. -/
theorem covers_iff_of_isAssignedTo (hplace : place ∈ function.walk) (h : IsAssignedTo function target)
    (object : String) :
    covers object place = true ↔
      Names.isRetryName function.node.ownName = true ∨
      ∃ around, (around = place ∨ around ∈ place.ancestors) ∧ around ≠ function ∧
        marks object around = true := by
  rw [covers_iff, ← marks_of_isAssignedTo h object]
  constructor
  · rintro ⟨around, haround, hmarks⟩
    by_cases hsame : around = function
    · exact .inl (hsame ▸ hmarks)
    · exact .inr ⟨around, haround, hsame, hmarks⟩
  · rintro (hmarks | ⟨around, haround, -, hmarks⟩)
    · exact ⟨function, (Cursor.eq_or_mem_ancestors_of_mem_walk hplace).imp_left Eq.symm, hmarks⟩
    · exact ⟨around, haround, hmarks⟩

end Retry

/-- A fixed wait in retry code is not reported. -/
theorem Checker.waitIssues_of_covers {delay : Number}
    (hdelay : delay? place.node .asyncReliability = some delay)
    (hplaced : place.node.isUnplaced = false) (hcovers : Retry.covers libraryObject place = true)
    (file : TestFile) (declared : List String) : waitIssues file declared place = .ok [] := by
  have hunreported : reportsDelay file place delay .asyncReliability = false := by
    unfold reportsDelay
    rw [hcovers, Bool.or_true, Bool.not_true, Bool.and_false]
  have hasked : (askedByWait file declared place).any Node.isUnplaced = false := by
    unfold askedByWait askedByDelay
    rw [hdelay]
    dsimp only
    split
    · rw [List.any_cons, hplaced, List.any_nil, Bool.or_false]
    · rfl
  rw [waitIssues_guarded, hasked]
  simp [isUnwritable, waitsAt, hdelay, delayIssues, hunreported]

/-- Inside a function whose name, by declaration or by the variable it initialises, speaks of retrying,
every place is retry code and no fixed wait is reported. Inside a function that is assigned, the name
of the target does not count. -/
theorem Retry.covers_inside_function {function : Cursor} (hplace : place ∈ function.walk) :
    (∀ name, IsCalled function name → SpeaksOfRetrying name →
      (∀ object, covers object place = true) ∧
      ∀ file declared delay, Checker.asyncReliability.delay? place.node = some delay →
        place.node.isUnplaced = false → Checker.waitIssues file declared place = .ok []) ∧
    ∀ target, IsAssignedTo function target → ∀ object,
      (covers object place = true ↔
        SpeaksOfRetrying function.node.ownName ∨
        ∃ around, (around = place ∨ around ∈ place.ancestors) ∧ around ≠ function ∧
          marks object around = true) := by
  constructor
  · intro name hname hretry
    have hcovers := covers_of_isCalled hplace hname (isRetryName_iff.2 hretry)
    exact ⟨hcovers, fun file declared _ hdelay hplaced =>
      Checker.waitIssues_of_covers hdelay hplaced (hcovers libraryObject) file declared⟩
  · intro target htarget object
    rw [← isRetryName_iff]
    exact covers_iff_of_isAssignedTo hplace htarget object

namespace Sample

/-- A function that initialises a variable, within parentheses, and one that is assigned; each has a
fixed wait in it. -/
def namedFunctions : TestFile :=
  .ofOutline "a.cy.js"
      "const pollStatus = (() => cy.wait(1000));\nretryClick = () => cy.wait(1000);"
      defaultGrammar <|
    piece (.other "program") none 0 75 [
      piece (.other "lexical_declaration") none 0 41 [
        piece .declarator none 6 40 [
          piece .identifier (some .name) 6 16 [],
          piece .parenthesized (some (.other "value")) 19 40 [
            piece .arrowFunction none 20 39 [
              methodCall (some .body) 26 29 33 39 (piece .identifier (some .object) 26 28 [])
                [piece .number none 34 38 []]]]]],
      piece .expressionStatement none 42 75 [
        piece .assignment none 42 74 [
          piece .identifier (some (.other "left")) 42 52 [],
          piece .arrowFunction (some (.other "right")) 55 74 [
            methodCall (some .body) 61 64 68 74 (piece .identifier (some .object) 61 63 [])
              [piece .number none 69 73 []]]]]]

/-- The places of the functions in it. -/
def pollStatus : Cursor :=
  (namedFunctions.cursor.walk.filter fun place => place.kind.isFunction).get ⟨0, by decide +kernel⟩

def retryClick : Cursor :=
  (namedFunctions.cursor.walk.filter fun place => place.kind.isFunction).get ⟨1, by decide +kernel⟩

/-- The places of the fixed waits in them. -/
def pollStatusWait : Cursor :=
  pollStatus.calls.get ⟨0, by decide +kernel⟩

def retryClickWait : Cursor :=
  retryClick.calls.get ⟨0, by decide +kernel⟩

end Sample

theorem Retry.isAssignedTo_retryClick : IsAssignedTo Sample.retryClick "retryClick" := by
  have hbinder : ∃ binder, Sample.retryClick.binder? = some binder ∧ binder.kind = .assignment ∧
      ∃ left, binder.node.child? (.other "left") = some left ∧ left.kind = .identifier ∧
        left.text = "retryClick" :=
    ⟨Sample.retryClick.binder?.get (by decide +kernel), (Option.some_get _).symm, by decide +kernel,
      (Node.child? _ _).get (by decide +kernel), (Option.some_get _).symm, by decide +kernel,
      by decide +kernel⟩
  obtain ⟨binder, hbinder, hleft⟩ := hbinder
  exact ⟨by decide +kernel, binder, Cursor.binder?_eq_some_iff.1 hbinder, hleft⟩

/-- Both names speak of retrying, but only the variable excuses the wait in its function. -/
theorem Retry.covers_inside_pollStatus :
    IsCalled Sample.pollStatus "pollStatus" ∧ SpeaksOfRetrying "pollStatus" ∧
    Checker.waitIssues Sample.namedFunctions [] Sample.pollStatusWait = .ok [] ∧
    IsAssignedTo Sample.retryClick "retryClick" ∧ SpeaksOfRetrying "retryClick" ∧
    Sample.retryClickWait ∈ Sample.retryClick.walk ∧
    covers libraryObject Sample.retryClickWait = false ∧
    ¬ SpeaksOfRetrying Sample.retryClick.node.ownName ∧
    (Checker.waitIssues Sample.namedFunctions [] Sample.retryClickWait).map List.length = .ok 1 := by
  have hcalled : IsCalled Sample.pollStatus "pollStatus" :=
    isCalled_of_variableName? (by decide +kernel) (by decide +kernel)
  have hpoll : SpeaksOfRetrying "pollStatus" := isRetryName_iff.1 (by decide +kernel)
  have hpollWait : Sample.pollStatusWait ∈ Sample.pollStatus.walk :=
    (List.mem_filter.1 (List.get_mem _ _)).1
  have hretryWait : Sample.retryClickWait ∈ Sample.retryClick.walk :=
    (List.mem_filter.1 (List.get_mem _ _)).1
  have hdelay : (Checker.asyncReliability.delay? Sample.pollStatusWait.node).isSome = true := by
    decide +kernel
  obtain ⟨delay, hdelay⟩ := Option.isSome_iff_exists.1 hdelay
  have huncovered : covers libraryObject Sample.retryClickWait = false := by decide +kernel
  refine ⟨hcalled, hpoll,
    ((covers_inside_function hpollWait).1 _ hcalled hpoll).2 _ _ delay hdelay (by decide +kernel),
    isAssignedTo_retryClick, isRetryName_iff.1 (by decide +kernel), hretryWait, huncovered,
    fun hown => ?_, by decide +kernel⟩
  have hcovers := ((covers_inside_function hretryWait).2 _ isAssignedTo_retryClick libraryObject).2
    (.inl hown)
  rw [huncovered] at hcovers
  cases hcovers

end FlakeLint
