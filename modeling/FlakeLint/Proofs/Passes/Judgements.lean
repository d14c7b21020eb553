-- SUMMARY: What the analysis judges about nodes and places is judged alike on a redrawn tree.
import FlakeLint.Proofs.Passes.Issues
import FlakeLint.Proofs.Tree.Redrawn

/-!
# Judgements on redrawn trees

Apart from lines and locations, nothing that the analysis asks depends on where
nodes stand or on comments between them.
-/

namespace FlakeLint

variable {R : Span → Span → Prop} {n n' : Node} {c c' : Cursor}

/-! ## Assertions and actions -/

namespace Assertion

theorem isAssertion_redrawn (h : n.Redrawn R n') : isAssertion n' = isAssertion n := by
  unfold isAssertion
  rw [h.methodName?, h.calleeName?]

theorem inThenCallback_redrawn (h : n.Redrawn R n') :
    List.Forall₂ (Node.Redrawn R) (inThenCallback n) (inThenCallback n') := by
  have hargs := h.arguments
  unfold inThenCallback
  rw [h.methodName?]
  split
  · generalize n.arguments = args, n'.arguments = args' at hargs
    cases hargs with
    | nil => exact .nil
    | @cons callback callback' _ _ hcallback _ =>
      have hbody := hcallback.blockBody?
      dsimp only
      rw [hcallback.kind]
      split
      · generalize callback.blockBody? = body, callback'.blockBody? = body' at hbody
        cases hbody with
        | none => exact .nil
        | some hbody =>
          refine List.rel_filterMap (fun statement statement' hstatement => ?_)
            (forall₂_filter hbody.parts fun _ _ hstatement => by rw [hstatement.kind])
          exact rel_filter (rel_head? hstatement.parts) fun _ _ hsite => by
            rw [hsite.kind, isAssertion_redrawn hsite]
      · exact .nil
  · exact .nil

theorem sitesOf_redrawn (h : n.Redrawn R n') :
    List.Forall₂ (Node.Redrawn R) (sitesOf n) (sitesOf n') := by
  unfold sitesOf
  rw [isAssertion_redrawn h]
  refine List.rel_append ?_ (inThenCallback_redrawn h)
  split
  · exact .cons h .nil
  · exact .nil

theorem isChained_redrawn (h : c.Redrawn R c') (methods : List String) :
    isChained methods c' = isChained methods c := by
  have habove := h.above
  unfold isChained
  generalize c.above = above, c'.above = above' at habove
  induction habove with
  | nil => rfl
  | cons hn _ ih =>
    rw [List.takeWhile_cons, List.takeWhile_cons, hn.kind]
    split
    · rw [List.any_cons, List.any_cons, hn.propertyName?, ih]
    · rfl

theorem isRelated_redrawn (h : c.Redrawn R c') (selector : String) :
    isRelated selector c' = isRelated selector c := by
  unfold isRelated
  rw [h.node.isCallOf, isChained_redrawn h,
    bind_eq_of_rel (rel_head? h.node.arguments) fun _ _ => Node.Redrawn.stringValue?]

end Assertion

theorem ActionSite.command?_redrawn (h : n.Redrawn R n') (object : String) :
    command? object n' = command? object n := by
  unfold command?
  rw [h.methodName?, h.chainObject?]

/-! ## Waits -/

namespace Retry

theorem isRecursive_redrawn (h : c.Redrawn R c') : isRecursive c' = isRecursive c := by
  unfold isRecursive
  rw [h.node.calleeName?]
  split
  · rfl
  · rw [any_eq_of_forall₂ h.above fun n n' hn => ?_]
    have hname := hn.child? .name
    rw [hn.kind, map_eq_of_rel hname fun _ _ => Node.Redrawn.text,
      bind_eq_of_rel hname fun _ _ => Node.Redrawn.identifier?]

theorem isPassedOn_redrawn (h : c.Redrawn R c') : isPassedOn c' = isPassedOn c := by
  unfold isPassedOn
  rw [bind_eq_of_rel h.passedTo? fun _ _ hcall => hcall.node.calleeName?]

theorem marks_redrawn (h : c.Redrawn R c') (object : String) :
    marks object c' = marks object c := by
  unfold marks
  rw [h.node.isCallOf, h.kind, h.functionName, isPassedOn_redrawn h, isRecursive_redrawn h]

theorem covers_redrawn (h : c.Redrawn R c') (object : String) :
    covers object c' = covers object c := by
  unfold covers
  rw [marks_redrawn h, any_eq_of_forall₂ h.ancestors fun _ _ hplace => marks_redrawn hplace object]

end Retry

namespace Wait

theorem soleArgument?_redrawn (h : n.Redrawn R n') :
    Option.Rel (Node.Redrawn R) (soleArgument? n) (soleArgument? n') := by
  have hargs := h.arguments
  unfold soleArgument?
  generalize n.arguments = args, n'.arguments = args' at hargs
  cases hargs with
  | nil => exact .none
  | cons hargument hrest =>
    cases hrest with
    | nil => exact .some hargument
    | cons _ _ => exact .none

theorem alias?_redrawn (h : n.Redrawn R n') (object : String) :
    alias? object n' = alias? object n := by
  unfold alias?
  rw [h.isCallOf, bind_eq_of_rel (soleArgument?_redrawn h) fun _ _ => Node.Redrawn.stringValue?]

theorem declaredAlias?_redrawn (h : n.Redrawn R n') : declaredAlias? n' = declaredAlias? n := by
  unfold declaredAlias?
  rw [h.methodName?,
    bind_eq_of_rel (soleArgument?_redrawn h) fun _ _ => Node.Redrawn.stringValue?]

theorem declaredAliases_redrawn (h : c.Redrawn R c') :
    declaredAliases c' = declaredAliases c := by
  unfold declaredAliases
  rw [filterMap_eq_of_forall₂ h.calls fun _ _ hcall => declaredAlias?_redrawn hcall.node]

end Wait

theorem Checker.delay?_redrawn (h : n.Redrawn R n') (checker : Checker) :
    checker.delay? n' = checker.delay? n := by
  cases checker with
  | asyncReliability =>
    unfold delay?
    dsimp only
    rw [h.isCallOf,
      bind_eq_of_rel (Wait.soleArgument?_redrawn h) fun _ _ => Node.Redrawn.numberValue?]
  | pageTimeouts =>
    unfold delay?
    dsimp only
    rw [h.isCallOf, bind_eq_of_rel (rel_head? h.arguments) fun _ _ => Node.Redrawn.numberValue?]

/-! ## Chains -/

namespace Returns

theorem callsLibrary_redrawn (h : n.Redrawn R n') (object : String) :
    callsLibrary object n' = callsLibrary object n := by
  have hcallee := h.callee?
  unfold callsLibrary
  generalize n.callee? = callee, n'.callee? = callee' at hcallee
  cases hcallee with
  | none => rfl
  | some hcallee =>
    dsimp only
    rw [hcallee.kind, hcallee.identifier?,
      bind_eq_of_rel hcallee.object? fun _ _ => Node.Redrawn.identifier?]

theorem containsLibraryCalls_redrawn (h : c.Redrawn R c') (object : String) :
    containsLibraryCalls c' object = containsLibraryCalls c object :=
  any_eq_of_forall₂ h.calls fun _ _ hcall => callsLibrary_redrawn hcall.node object

theorem ownReturns_redrawn (h : c.Redrawn R c') :
    List.Forall₂ (Cursor.Redrawn R) (ownReturns c) (ownReturns c') :=
  h.walkOwnScope (p := fun kind => kind = .returnStatement) rfl

theorem hasReturn_redrawn (h : c.Redrawn R c') : hasReturn c' = hasReturn c := by
  have hreturns := ownReturns_redrawn h
  unfold hasReturn
  generalize ownReturns c = returns, ownReturns c' = returns' at hreturns
  cases hreturns <;> rfl

theorem target?_redrawn (h : n.Redrawn R n') :
    Option.Rel (Node.Redrawn R) (target? n) (target? n') :=
  rel_bind h.receiver? fun _ _ => Node.Redrawn.unwrap?

theorem isChainOn_eq (object : String) (call : Node) :
    isChainOn object call = (call.kind = .call && (target? call).any fun target =>
      target.identifier? == some object || isChainOn object target) := by
  rw [isChainOn]
  congr 1
  split
  · next h => rw [h, Option.any_none]
  · next h => rw [h, Option.any_some]

theorem isChainOn_redrawn (h : n.Redrawn R n') (object : String) :
    isChainOn object n' = isChainOn object n := by
  induction n using isChainOn.induct generalizing n' with
  | case1 n ih =>
    rw [isChainOn_eq, isChainOn_eq object n, h.kind]
    have htarget := target?_redrawn h
    cases hsome : target? n with
    | none =>
      rw [hsome] at htarget
      generalize target? n' = target' at htarget
      cases htarget
      rfl
    | some target =>
      rw [hsome] at htarget
      generalize target? n' = target' at htarget
      cases htarget with
      | some htarget =>
        rw [Option.any_some, Option.any_some, htarget.identifier?, ih target hsome htarget]

theorem isLibraryChain_redrawn (h : n.Redrawn R n') (object : String) :
    isLibraryChain object n' = isLibraryChain object n :=
  any_eq_of_rel h.unwrap? fun _ _ hchain => isChainOn_redrawn hchain object

theorem returnsChain_redrawn (h : c.Redrawn R c') (object : String) :
    returnsChain c' object = returnsChain c object :=
  any_eq_of_forall₂ (ownReturns_redrawn h) fun _ _ hreturn =>
    any_eq_of_rel hreturn.node.returned? fun _ _ hvalue => isLibraryChain_redrawn hvalue object

end Returns

namespace BrokenChain

theorem isBrokenCallback_redrawn (h : n.Redrawn R n') :
    isBrokenCallback n' = isBrokenCallback n := by
  unfold isBrokenCallback
  rw [h.kind, any_eq_of_rel h.blockBody? fun body body' hbody => ?_]
  have hplace : (Cursor.ofRoot body).Redrawn R (Cursor.ofRoot body') := ⟨hbody, .nil⟩
  rw [Returns.containsLibraryCalls_redrawn hplace, Returns.hasReturn_redrawn hplace]

theorem brokenCallback?_redrawn (h : n.Redrawn R n') :
    Option.Rel (Node.Redrawn R) (brokenCallback? n) (brokenCallback? n') :=
  rel_filter (rel_head? h.arguments) fun _ _ => isBrokenCallback_redrawn

theorem isInTest_redrawn (h : c.Redrawn R c') : isInTest c' = isInTest c :=
  any_eq_of_forall₂ h.above fun _ _ haround => by rw [haround.kind, haround.calleeName?]

theorem isHelper_redrawn (h : c.Redrawn R c') : isHelper c' = isHelper c := by
  unfold isHelper
  rw [h.kind, any_eq_of_rel h.binder? fun _ _ hbinder => by rw [hbinder.kind]]

theorem reportedName_redrawn (h : c.Redrawn R c') : reportedName c' = reportedName c := by
  unfold reportedName
  rw [h.functionName]

theorem isBrokenHelper_redrawn (h : c.Redrawn R c') : isBrokenHelper c' = isBrokenHelper c := by
  have hbody : Option.Rel (Cursor.Redrawn R) (c.body?.filter fun body => body.kind = .block)
      (c'.body?.filter fun body => body.kind = .block) :=
    rel_filter h.body? fun _ _ hbody => by rw [hbody.kind]
  unfold isBrokenHelper
  rw [isInTest_redrawn h, reportedName_redrawn h, any_eq_of_rel hbody fun _ _ hblock => by
    rw [Returns.containsLibraryCalls_redrawn hblock, Returns.returnsChain_redrawn hblock]]

/-- The same is said about functions that correspond. -/
theorem brokenAt?_redrawn (h : c.Redrawn R c') :
    Option.Rel (fun found found' => found'.1 = found.1 ∧ found.2.Redrawn R found'.2)
      (brokenAt? c) (brokenAt? c') := by
  unfold brokenAt?
  rw [h.kind, h.node.methodName?, isHelper_redrawn h, isBrokenHelper_redrawn h,
    reportedName_redrawn h]
  split
  · exact rel_map (brokenCallback?_redrawn h.node) fun _ _ hcallback => ⟨rfl, hcallback⟩
  · split
    · exact .some ⟨rfl, h.node⟩
    · exact .none

end BrokenChain

/-! ## Tests -/

namespace TestBlock

theorem bodyOf?_redrawn (h : n.Redrawn R n') (names : List String) :
    Option.Rel (Node.Redrawn R) (bodyOf? names n) (bodyOf? names n') := by
  have hargs := h.arguments
  unfold bodyOf?
  rw [h.calleeName?]
  split
  · generalize n.arguments = args, n'.arguments = args' at hargs
    cases hargs with
    | nil => exact .none
    | cons _ hrest =>
      cases hrest with
      | nil => exact .none
      | cons hcallback _ =>
        dsimp only
        rw [hcallback.kind]
        split
        · exact hcallback.blockBody?
        · exact .none
  · exact .none

theorem bodies_redrawn (h : c.Redrawn R c') (names : List String) :
    List.Forall₂ (Node.Redrawn R) (bodies names c) (bodies names c') :=
  List.rel_filterMap (fun _ _ hcall => bodyOf?_redrawn hcall.node names) h.calls

end TestBlock

end FlakeLint
