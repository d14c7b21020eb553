-- SUMMARY: Trees that differ in positions and comments only, and what they have in common.
import FlakeLint.Proofs.Related
import FlakeLint.Proofs.Tree.Position

/-!
# Redrawn trees

A tree is redrawn by giving every node another position and by leaving out some of
the comments. What is asked about the nodes themselves has the same answer on the
redrawn tree; the parts and places of one tree correspond to those of the other.
-/

namespace FlakeLint

variable {R : Span → Span → Prop}

-- ---------------------------------------------------------------------------
-- Nodes
-- ---------------------------------------------------------------------------

namespace Node

/-- A comment that has no part and is not a part in any role. -/
def isBareComment (n : Node) : Bool :=
  n.kind = .comment && n.head.role.isNone && n.children.isEmpty

mutual
/-- The second tree is the first one with positions related by `R` and without some of the comments. -/
inductive Redrawn (R : Span → Span → Prop) : Node → Node → Prop where
  | mk {head : Head} {span span' : Span} {children children' : List Node} :
    head.span = some span → R span span' → RedrawnAll R children children' →
    Redrawn R (.mk head children) (.mk { head with span := some span' } children')

inductive RedrawnAll (R : Span → Span → Prop) : List Node → List Node → Prop where
  | nil : RedrawnAll R [] []
  | keep {n n' : Node} {ns ns' : List Node} :
    n.Redrawn R n' → RedrawnAll R ns ns' → RedrawnAll R (n :: ns) (n' :: ns')
  | drop {n : Node} {ns ns' : List Node} :
    n.isBareComment → n.isPositioned → RedrawnAll R ns ns' → RedrawnAll R (n :: ns) ns'
end

variable {n n' : Node}

theorem isBareComment_iff :
    n.isBareComment ↔ n.kind = .comment ∧ n.head.role = none ∧ n.children = [] := by
  simp [isBareComment, and_assoc]

theorem RedrawnAll.isPositioned {ns ns' : List Node} (h : RedrawnAll R ns ns')
    (hns : ∀ n ∈ ns, ∀ n', n.Redrawn R n' → n.isPositioned ∧ n'.isPositioned) :
    (∀ n ∈ ns, n.isPositioned) ∧ ∀ n' ∈ ns', n'.isPositioned := by
  induction ns generalizing ns' with
  | nil =>
    cases h
    simp
  | cons n ns ih =>
    rw [List.forall_mem_cons] at hns
    cases h with
    | keep hn hrest =>
      obtain ⟨hleft, hright⟩ := ih hrest hns.2
      have hboth := hns.1 _ hn
      exact ⟨List.forall_mem_cons.2 ⟨hboth.1, hleft⟩, List.forall_mem_cons.2 ⟨hboth.2, hright⟩⟩
    | drop _ hpositioned hrest =>
      obtain ⟨hleft, hright⟩ := ih hrest hns.2
      exact ⟨List.forall_mem_cons.2 ⟨hpositioned, hleft⟩, hright⟩

theorem Redrawn.isPositioned (h : n.Redrawn R n') : n.isPositioned ∧ n'.isPositioned := by
  induction n using induction_children generalizing n' with
  | mk head children ih =>
    cases h with
    | mk hspan _ hchildren =>
      obtain ⟨hleft, hright⟩ := hchildren.isPositioned fun n hn n' => ih n hn
      rw [isPositioned_iff, isPositioned_iff]
      exact ⟨⟨by simp [Node.head, hspan], hleft⟩, ⟨rfl, hright⟩⟩

/-- Where comments without a role yield nothing, children that correspond yield what corresponds. -/
theorem RedrawnAll.flatMap {α β : Type} {S : α → β → Prop} {ns ns' : List Node}
    (h : RedrawnAll R ns ns') {f : Node → List α} {f' : Node → List β}
    (hkeep : ∀ n ∈ ns, ∀ n', n.Redrawn R n' → List.Forall₂ S (f n) (f' n'))
    (hdrop : ∀ n ∈ ns, n.isBareComment → f n = []) :
    List.Forall₂ S (ns.flatMap f) (ns'.flatMap f') := by
  induction ns generalizing ns' with
  | nil =>
    cases h
    exact .nil
  | cons n ns ih =>
    rw [List.forall_mem_cons] at hkeep hdrop
    cases h with
    | keep hn hns => exact List.rel_append (hkeep.1 _ hn) (ih hns hkeep.2 hdrop.2)
    | drop hbare _ hns =>
      rw [List.flatMap_cons, hdrop.1 hbare, List.nil_append]
      exact ih hns hkeep.2 hdrop.2

theorem RedrawnAll.filter {ns ns' : List Node} (h : RedrawnAll R ns ns') {p : Node → Bool}
    (hp : ∀ n n', n.Redrawn R n' → p n' = p n) (hbare : ∀ n, n.isBareComment → p n = false) :
    List.Forall₂ (Redrawn R) (ns.filter p) (ns'.filter p) := by
  rw [← List.filterMap_eq_filter, List.filterMap_eq_flatMap_toList,
    List.filterMap_eq_flatMap_toList]
  refine h.flatMap (fun n _ n' hn => ?_) (fun n _ hn => ?_)
  · rw [Option.guard, Option.guard, hp n n' hn]
    cases p n with
    | true => exact .cons hn .nil
    | false => exact .nil
  · rw [Option.guard, hbare n hn]
    rfl

namespace Redrawn

theorem kind (h : n.Redrawn R n') : n'.kind = n.kind := by
  cases h
  rfl

theorem text (h : n.Redrawn R n') : n'.text = n.text := by
  cases h
  rfl

theorem named (h : n.Redrawn R n') : n'.head.named = n.head.named := by
  cases h
  rfl

theorem role (h : n.Redrawn R n') : n'.head.role = n.head.role := by
  cases h
  rfl

theorem children (h : n.Redrawn R n') : RedrawnAll R n.children n'.children := by
  cases h with
  | mk _ _ hchildren => exact hchildren

theorem related (h : n.Redrawn R n') : R ⟨n.start, n.stop⟩ ⟨n'.start, n'.stop⟩ := by
  cases h with
  | mk hspan hR _ => simpa [start, stop, head, hspan] using hR

theorem child? (h : n.Redrawn R n') (role : Role) :
    Option.Rel (Redrawn R) (n.child? role) (n'.child? role) := by
  unfold Node.child?
  rw [← List.head?_filter, ← List.head?_filter]
  refine rel_head? (h.children.filter (fun n n' hn => ?_) (fun n hn => ?_))
  · rw [hn.role]
  · simp [(isBareComment_iff.1 hn).2.1]

theorem parts (h : n.Redrawn R n') : List.Forall₂ (Redrawn R) n.parts n'.parts := by
  refine h.children.filter (fun n n' hn => ?_) (fun n hn => ?_)
  · rw [hn.named, hn.kind]
  · simp [(isBareComment_iff.1 hn).1]

-- ---------------------------------------------------------------------------
-- Values
-- ---------------------------------------------------------------------------

theorem stringValue? (h : n.Redrawn R n') : n'.stringValue? = n.stringValue? := by
  unfold Node.stringValue?
  rw [h.kind, h.text]

theorem numberValue? (h : n.Redrawn R n') : n'.numberValue? = n.numberValue? := by
  unfold Node.numberValue?
  rw [h.kind, h.text]

theorem identifier? (h : n.Redrawn R n') : n'.identifier? = n.identifier? := by
  unfold Node.identifier?
  rw [h.kind, h.text]

end Redrawn

theorem unwrap?_eq (n : Node) :
    n.unwrap? = if n.kind = .parenthesized then n.parts.head?.bind unwrap? else some n := by
  rw [unwrap?]
  split
  · split
    · next h => rw [h, List.head?_nil, Option.bind_none]
    · next h => rw [h, List.head?_cons, Option.bind_some]
  · rfl

theorem chainStart_eq (n : Node) :
    n.chainStart = match n.receiver? with
      | none => (n, none)
      | some inner => if inner.kind = .call then inner.chainStart else (n, some inner) := by
  rw [chainStart]
  split
  · next h => rw [h]
  · next h => rw [h]

namespace Redrawn

theorem unwrap? (h : n.Redrawn R n') : Option.Rel (Redrawn R) n.unwrap? n'.unwrap? := by
  induction n using Node.unwrap?.induct generalizing n' with
  | case1 n hk hp =>
    have hparts := h.parts
    rw [hp, List.forall₂_nil_left_iff] at hparts
    rw [unwrap?_eq, unwrap?_eq n', h.kind, if_pos hk, if_pos hk, hp, hparts]
    exact .none
  | case2 n hk inner rest hp ih =>
    have hparts := h.parts
    rw [hp, List.forall₂_cons_left_iff] at hparts
    obtain ⟨inner', rest', hinner, -, hp'⟩ := hparts
    rw [unwrap?_eq, unwrap?_eq n', h.kind, if_pos hk, if_pos hk, hp, hp']
    exact ih hinner
  | case3 n hk =>
    rw [unwrap?_eq, unwrap?_eq n', h.kind, if_neg hk, if_neg hk]
    exact .some h

-- ---------------------------------------------------------------------------
-- Calls
-- ---------------------------------------------------------------------------

theorem callee? (h : n.Redrawn R n') : Option.Rel (Redrawn R) n.callee? n'.callee? :=
  h.child? .function

theorem object? (h : n.Redrawn R n') : Option.Rel (Redrawn R) n.object? n'.object? :=
  h.child? .object

theorem arguments (h : n.Redrawn R n') :
    List.Forall₂ (Redrawn R) n.arguments n'.arguments := by
  have hargs := h.child? .arguments
  unfold Node.arguments
  generalize n.child? .arguments = args, n'.child? .arguments = args' at hargs
  cases hargs with
  | none => exact .nil
  | some hargs =>
    dsimp only
    rw [hargs.kind]
    split
    · exact hargs.parts
    · exact .nil

theorem propertyName? (h : n.Redrawn R n') : n'.propertyName? = n.propertyName? := by
  have hproperty := h.child? .property
  unfold Node.propertyName?
  generalize n.child? .property = property, n'.child? .property = property' at hproperty
  cases hproperty with
  | none => rfl
  | some hproperty =>
    dsimp only
    rw [hproperty.kind, hproperty.text]

theorem memberCallee? (h : n.Redrawn R n') :
    Option.Rel (Redrawn R) n.memberCallee? n'.memberCallee? :=
  rel_filter h.callee? fun _ _ hcallee => by rw [hcallee.kind]

theorem methodName? (h : n.Redrawn R n') : n'.methodName? = n.methodName? :=
  bind_eq_of_rel h.memberCallee? fun _ _ => propertyName?

theorem receiver? (h : n.Redrawn R n') : Option.Rel (Redrawn R) n.receiver? n'.receiver? :=
  rel_bind h.memberCallee? fun _ _ => object?

theorem calleeName? (h : n.Redrawn R n') : n'.calleeName? = n.calleeName? :=
  bind_eq_of_rel h.callee? fun _ _ => identifier?

theorem isCallOn (h : n.Redrawn R n') (object : String) : n'.isCallOn object = n.isCallOn object := by
  unfold Node.isCallOn
  rw [h.kind, bind_eq_of_rel h.receiver? fun _ _ => identifier?]

theorem isCallOf (h : n.Redrawn R n') (object method : String) :
    n'.isCallOf object method = n.isCallOf object method := by
  unfold Node.isCallOf
  rw [h.isCallOn, h.methodName?]

-- ---------------------------------------------------------------------------
-- Chains
-- ---------------------------------------------------------------------------

theorem chainStart (h : n.Redrawn R n') :
    n.chainStart.1.Redrawn R n'.chainStart.1 ∧
      Option.Rel (Redrawn R) n.chainStart.2 n'.chainStart.2 := by
  -- Both chains are followed from receiver to receiver: the kinds that decide where to stop are equal.
  induction n using Node.chainStart.induct generalizing n' with
  | case1 n hnone =>
    have hreceiver := h.receiver?
    rw [chainStart_eq, chainStart_eq n']
    rw [hnone] at hreceiver ⊢
    generalize n'.receiver? = receiver' at hreceiver
    cases hreceiver
    exact ⟨h, .none⟩
  | case2 n inner hsome hk ih =>
    have hreceiver := h.receiver?
    rw [chainStart_eq, chainStart_eq n']
    rw [hsome] at hreceiver ⊢
    generalize n'.receiver? = receiver' at hreceiver
    cases hreceiver with
    | some hinner =>
      dsimp only
      rw [hinner.kind, if_pos hk, if_pos hk]
      exact ih hinner
  | case3 n inner hsome hk =>
    have hreceiver := h.receiver?
    rw [chainStart_eq, chainStart_eq n']
    rw [hsome] at hreceiver ⊢
    generalize n'.receiver? = receiver' at hreceiver
    cases hreceiver with
    | some hinner =>
      dsimp only
      rw [hinner.kind, if_neg hk, if_neg hk]
      exact ⟨h, .some hinner⟩

theorem chainObject? (h : n.Redrawn R n') : n'.chainObject? = n.chainObject? :=
  bind_eq_of_rel h.chainStart.2 fun _ _ => identifier?

theorem getSelector? (h : n.Redrawn R n') : n'.getSelector? = n.getSelector? := by
  unfold Node.getSelector?
  rw [h.methodName?, bind_eq_of_rel (rel_head? h.arguments) fun _ _ => stringValue?]

-- ---------------------------------------------------------------------------
-- Functions
-- ---------------------------------------------------------------------------

theorem body? (h : n.Redrawn R n') : Option.Rel (Redrawn R) n.body? n'.body? :=
  h.child? .body

theorem blockBody? (h : n.Redrawn R n') : Option.Rel (Redrawn R) n.blockBody? n'.blockBody? :=
  rel_filter h.body? fun _ _ hbody => by rw [hbody.kind]

theorem returned? (h : n.Redrawn R n') : Option.Rel (Redrawn R) n.returned? n'.returned? :=
  rel_bind (rel_head? h.parts) fun _ _ => unwrap?

theorem ownName (h : n.Redrawn R n') : n'.ownName = n.ownName := by
  have hname := h.child? .name
  unfold Node.ownName
  generalize n.child? .name = name, n'.child? .name = name' at hname
  cases hname with
  | none => rfl
  | some hname => exact hname.text

end Redrawn

end Node

-- ---------------------------------------------------------------------------
-- Places
-- ---------------------------------------------------------------------------

namespace Cursor

/-- The places correspond: their nodes do, and so do the nodes around them. -/
structure Redrawn (R : Span → Span → Prop) (c c' : Cursor) : Prop where
  node : c.node.Redrawn R c'.node
  above : List.Forall₂ (Node.Redrawn R) c.above c'.above

variable {c c' : Cursor}

theorem outward_redrawn {ns ns' : List Node} (h : List.Forall₂ (Node.Redrawn R) ns ns') :
    List.Forall₂ (Redrawn R) (outward ns) (outward ns') := by
  induction h with
  | nil => exact .nil
  | cons hn hns ih => exact .cons ⟨hn, hns⟩ ih

namespace Redrawn

theorem kind (h : c.Redrawn R c') : c'.kind = c.kind :=
  h.node.kind

theorem parent? (h : c.Redrawn R c') : Option.Rel (Redrawn R) c.parent? c'.parent? := by
  have habove := h.above
  unfold Cursor.parent?
  generalize c.above = above, c'.above = above' at habove
  cases habove with
  | nil => exact .none
  | cons hn hns => exact .some ⟨hn, hns⟩

theorem ancestors (h : c.Redrawn R c') :
    List.Forall₂ (Redrawn R) c.ancestors c'.ancestors :=
  outward_redrawn h.above

theorem body? (h : c.Redrawn R c') : Option.Rel (Redrawn R) c.body? c'.body? :=
  rel_map h.node.body? fun _ _ hbody => ⟨hbody, .cons h.node h.above⟩

theorem binder? (h : c.Redrawn R c') : Option.Rel (Redrawn R) c.binder? c'.binder? :=
  rel_find? h.ancestors fun _ _ hplace => by rw [hplace.kind]

theorem variableName? (h : c.Redrawn R c') : c'.variableName? = c.variableName? := by
  have hbinder := h.binder?
  unfold Cursor.variableName?
  generalize c.binder? = binder, c'.binder? = binder' at hbinder
  cases hbinder with
  | none => rfl
  | some hbinder =>
    dsimp only
    rw [hbinder.kind, bind_eq_of_rel (hbinder.node.child? .name) fun _ _ => Node.Redrawn.identifier?]

theorem functionName (h : c.Redrawn R c') : c'.functionName = c.functionName := by
  unfold Cursor.functionName
  rw [h.kind, h.node.ownName, h.variableName?]

theorem passedTo? (h : c.Redrawn R c') : Option.Rel (Redrawn R) c.passedTo? c'.passedTo? := by
  have hbinder := h.binder?
  unfold Cursor.passedTo?
  generalize c.binder? = binder, c'.binder? = binder' at hbinder
  cases hbinder with
  | none => exact .none
  | some hbinder =>
    dsimp only
    rw [hbinder.kind]
    split
    · exact rel_filter hbinder.parent? fun _ _ hcall => by rw [hcall.kind]
    · exact .none

-- ---------------------------------------------------------------------------
-- Walks
-- ---------------------------------------------------------------------------

/-- Where kinds decide what is entered, the places of two walks correspond, comments aside. -/
theorem visit (h : c.Redrawn R c') (enter : Kind → Bool) {p : Kind → Bool}
    (hp : p .comment = false) :
    List.Forall₂ (Redrawn R)
      ((Cursor.visit (fun place => enter place.kind) [c]).filter fun place => p place.kind)
      ((Cursor.visit (fun place => enter place.kind) [c']).filter fun place => p place.kind) := by
  induction c using induction_children generalizing c' with
  | step c ih =>
    rw [visit_eq_node, visit_eq_node _ c', List.filter_cons, List.filter_cons, h.kind,
      List.filter_flatMap, List.filter_flatMap]
    have hbelow : List.Forall₂ (Redrawn R)
        (c.node.children.flatMap fun n => (if enter n.kind then
          Cursor.visit (fun place => enter place.kind) [⟨n, c.node :: c.above⟩] else []).filter
            fun place => p place.kind)
        (c'.node.children.flatMap fun n => (if enter n.kind then
          Cursor.visit (fun place => enter place.kind) [⟨n, c'.node :: c'.above⟩] else []).filter
            fun place => p place.kind) := by
      refine h.node.children.flatMap (fun n hn n' hn' => ?_) (fun n hn hbare => ?_)
      · rw [hn'.kind]
        split
        · exact ih _ (List.mem_map_of_mem hn) ⟨hn', .cons h.node h.above⟩
        · exact .nil
      -- A bare comment has nothing below it, and `p` leaves it out itself.
      · obtain ⟨hkind, -, hchildren⟩ := Node.isBareComment_iff.1 hbare
        rw [visit_eq_node, hchildren]
        split
        · simp [Cursor.kind, hkind, hp]
        · rfl
    split
    · exact .cons h hbelow
    · exact hbelow

/-- Apart from comments, the places of two walks correspond. -/
theorem walk (h : c.Redrawn R c') {p : Kind → Bool} (hp : p .comment = false) :
    List.Forall₂ (Redrawn R) (c.walk.filter fun place => p place.kind)
      (c'.walk.filter fun place => p place.kind) :=
  h.visit (fun _ => true) hp

theorem calls (h : c.Redrawn R c') : List.Forall₂ (Redrawn R) c.calls c'.calls :=
  h.walk (p := fun kind => kind = .call) rfl

theorem walkOwnScope (h : c.Redrawn R c') {p : Kind → Bool} (hp : p .comment = false) :
    List.Forall₂ (Redrawn R) (c.walkOwnScope.filter fun place => p place.kind)
      (c'.walkOwnScope.filter fun place => p place.kind) :=
  h.visit (fun kind => !kind.isFunction) hp

end Redrawn

end Cursor

end FlakeLint
