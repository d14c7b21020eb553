-- SUMMARY: The root of a source changes no judgement of the places below it.
import FlakeLint.Analysis.Retry
import FlakeLint.Problem.BrokenChain
import FlakeLint.Proofs.Tree.Walk

/-!
# Below a root

Judgements of a place look at the nodes around it. The root of a source is of a
kind that none of them looks for, so a place is judged in a source as it would be
without the root.
-/

namespace FlakeLint

variable {root : Node} {name : String}

/-! ## Functions and what surrounds them -/

namespace Cursor

theorem calls_under (outer : List Node) (c : Cursor) :
    (c.under outer).calls = c.calls.map (under outer) := by
  unfold calls
  rw [walk_under, List.filter_map]
  rfl

/-- Below the root of a source, each child is walked by itself. -/
theorem walk_ofRoot (root : Node) :
    (ofRoot root).walk = ofRoot root ::
      (root.children.flatMap fun child => (ofRoot child).walk).map (under [root]) := by
  rw [walk_eq]
  unfold children
  rw [List.flatMap_map, List.map_flatMap]
  congr 1
  exact List.flatMap_congr fun child _ => walk_under [root] (ofRoot child)

theorem calls_ofRoot (h : root.kind = .other name) :
    (ofRoot root).calls =
      (root.children.flatMap fun child => (ofRoot child).calls).map (under [root]) := by
  have hroot : ¬ (ofRoot root).kind = .call := by
    simp [Cursor.kind, ofRoot, h]
  unfold calls
  rw [walk_ofRoot, List.filter_cons, if_neg (by simpa using hroot), List.filter_map,
    List.filter_flatMap]
  rfl

theorem walkOwnScope_under (outer : List Node) (c : Cursor) :
    (c.under outer).walkOwnScope = c.walkOwnScope.map (under outer) := by
  induction c using induction_children with
  | step c ih =>
    rw [walkOwnScope_eq, walkOwnScope_eq, children_under, List.map_cons, List.filter_map,
      List.flatMap_map, List.map_flatMap]
    congr 1
    exact List.flatMap_congr fun child hchild => ih child (List.mem_filter.1 hchild).1

theorem outward_append (ns : List Node) (root : Node) :
    outward (ns ++ [root]) = (outward ns).map (under [root]) ++ [ofRoot root] := by
  induction ns with
  | nil => rfl
  | cons n ns ih =>
    rw [List.cons_append, outward, ih]
    rfl

theorem ancestors_under (root : Node) (c : Cursor) :
    (c.under [root]).ancestors = c.ancestors.map (under [root]) ++ [ofRoot root] :=
  outward_append c.above root

theorem body?_under (outer : List Node) (c : Cursor) :
    (c.under outer).body? = c.body?.map (under outer) := by
  unfold body?
  rw [Option.map_map]
  rfl

/-- Where nothing else binds a place, the root stands around it. -/
theorem binder?_under (h : root.kind = .other name) (c : Cursor) :
    (c.under [root]).binder? = (c.binder?.map (under [root])).or (some (ofRoot root)) := by
  have hroot : (ofRoot root).kind ≠ .parenthesized := by
    simp [Cursor.kind, ofRoot, h]
  unfold binder?
  rw [ancestors_under, List.find?_append, List.find?_map, List.find?_singleton,
    if_pos (decide_eq_true hroot)]
  rfl

theorem variableName?_under (h : root.kind = .other name) (c : Cursor) :
    (c.under [root]).variableName? = c.variableName? := by
  unfold variableName?
  rw [binder?_under h]
  cases c.binder? with
  | some binder => rfl
  | none => simp [Cursor.kind, ofRoot, h]

@[simp]
theorem functionName_under (h : root.kind = .other name) (c : Cursor) :
    (c.under [root]).functionName = c.functionName := by
  unfold functionName
  rw [variableName?_under h]
  rfl

theorem parent?_under (root : Node) (c : Cursor) :
    (c.under [root]).parent? = (c.parent?.map (under [root])).or (some (ofRoot root)) := by
  obtain ⟨n, above⟩ := c
  cases above <;> rfl

theorem passedTo?_under (h : root.kind = .other name) (c : Cursor) :
    (c.under [root]).passedTo? = c.passedTo?.map (under [root]) := by
  have hroot : (ofRoot root).kind = .other name := h
  unfold passedTo?
  rw [binder?_under h]
  cases c.binder? with
  | none => simp [hroot]
  | some args =>
    rw [Option.map_some, Option.some_or]
    dsimp only
    rw [parent?_under]
    by_cases hargs : args.kind = .arguments
    · rw [if_pos (show (args.under [root]).kind = .arguments from hargs), if_pos hargs]
      cases args.parent? with
      | none => simp [hroot]
      | some call =>
        by_cases hcall : call.kind = .call
        · have hunder : (call.under [root]).kind = .call := hcall
          simp [Option.filter, hcall, hunder]
        · have hunder : (call.under [root]).kind ≠ .call := hcall
          simp [Option.filter, hcall, hunder]
    · rw [if_neg (show (args.under [root]).kind ≠ .arguments from hargs), if_neg hargs]
      rfl

end Cursor

/-! ## Judgements -/

theorem Assertion.isChained_under (h : root.kind = .other name) (methods : List String)
    (c : Cursor) : isChained methods (c.under [root]) = isChained methods c := by
  have hstop : [root].takeWhile (fun n => n.kind = .member) = [] := by simp [h]
  have habove : (c.above ++ [root]).takeWhile (fun n => n.kind = .member) =
      c.above.takeWhile fun n => n.kind = .member := by
    rw [List.takeWhile_append, hstop, List.append_nil]
    split
    · next hall => exact ((List.takeWhile_prefix _).eq_of_length hall).symm
    · rfl
  unfold isChained
  rw [← habove]
  rfl

namespace Retry

theorem isRecursive_under (h : root.kind = .other name) (c : Cursor) :
    isRecursive (c.under [root]) = isRecursive c := by
  unfold isRecursive Cursor.under
  cases c.node.calleeName? with
  | none => rfl
  | some callee => simp [h, Kind.isFunctionDeclaration]

theorem isPassedOn_under (h : root.kind = .other name) (c : Cursor) :
    isPassedOn (c.under [root]) = isPassedOn c := by
  unfold isPassedOn
  rw [Cursor.passedTo?_under h]
  cases c.passedTo? <;> rfl

theorem marks_under (h : root.kind = .other name) (object : String) (c : Cursor) :
    marks object (c.under [root]) = marks object c := by
  unfold marks
  rw [Cursor.functionName_under h, isPassedOn_under h, isRecursive_under h]
  rfl

/-- A root does not make what is below it retry code. -/
theorem marks_root (h : root.kind = .other name) (object : String) :
    marks object (.ofRoot root) = false := by
  simp [marks, Cursor.ofRoot, Cursor.kind, Node.isCallOf, Node.isCallOn, h, Kind.isFunction,
    Kind.isCallback, Kind.isFunctionDeclaration, Kind.isLoop]

theorem covers_under (h : root.kind = .other name) (object : String) (c : Cursor) :
    covers object (c.under [root]) = covers object c := by
  unfold covers
  rw [Cursor.ancestors_under, List.any_append, List.any_map, List.any_cons, marks_root h,
    marks_under h]
  simp [Function.comp_def, marks_under h]

end Retry

namespace Returns

theorem containsLibraryCalls_under (outer : List Node) (c : Cursor) (object : String) :
    containsLibraryCalls (c.under outer) object = containsLibraryCalls c object := by
  unfold containsLibraryCalls
  rw [Cursor.calls_under, List.any_map]
  rfl

theorem returnsChain_under (outer : List Node) (c : Cursor) (object : String) :
    returnsChain (c.under outer) object = returnsChain c object := by
  unfold returnsChain ownReturns
  rw [Cursor.walkOwnScope_under, List.filter_map, List.any_map]
  rfl

theorem hasReturn_under (outer : List Node) (c : Cursor) :
    hasReturn (c.under outer) = hasReturn c := by
  unfold hasReturn ownReturns
  rw [Cursor.walkOwnScope_under, List.filter_map, List.isEmpty_map]
  rfl

end Returns

namespace BrokenChain

theorem isInTest_under (h : root.kind = .other name) (c : Cursor) :
    isInTest (c.under [root]) = isInTest c := by
  unfold isInTest Cursor.under
  rw [List.any_append]
  simp [h]

theorem isHelper_under (h : root.kind = .other name) (c : Cursor) :
    isHelper (c.under [root]) = isHelper c := by
  have hroot : (Cursor.ofRoot root).kind = .other name := h
  unfold isHelper
  rw [Cursor.binder?_under h]
  cases c.binder? with
  | some binder => rfl
  | none =>
    simp [hroot]
    rfl

theorem reportedName_under (h : root.kind = .other name) (c : Cursor) :
    reportedName (c.under [root]) = reportedName c := by
  unfold reportedName
  rw [Cursor.functionName_under h]

theorem isBrokenHelper_under (h : root.kind = .other name) (c : Cursor) :
    isBrokenHelper (c.under [root]) = isBrokenHelper c := by
  unfold isBrokenHelper
  rw [isInTest_under h, reportedName_under h, Cursor.body?_under]
  cases c.body? with
  | none => rfl
  | some body =>
    by_cases hbody : body.kind = .block
    · have hunder : (body.under [root]).kind = .block := hbody
      simp [Option.filter, hbody, hunder, Returns.containsLibraryCalls_under, Returns.returnsChain_under]
    · have hunder : (body.under [root]).kind ≠ .block := hbody
      simp [Option.filter, hbody, hunder]

theorem brokenAt?_under (h : root.kind = .other name) (c : Cursor) :
    brokenAt? (c.under [root]) = brokenAt? c := by
  unfold brokenAt?
  rw [isHelper_under h, isBrokenHelper_under h, reportedName_under h]
  rfl

/-- A root is never reported itself. -/
theorem brokenAt?_root (h : root.kind = .other name) : brokenAt? (.ofRoot root) = none := by
  have hroot : (Cursor.ofRoot root).kind = .other name := h
  simp [brokenAt?, isHelper, hroot, Kind.isCallback, Kind.isFunctionDeclaration]

end BrokenChain

end FlakeLint
