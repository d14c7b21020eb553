-- SUMMARY: Walks that keep pending places on one stack, and the recursion over children that they amount to.
import FlakeLint.Proofs.Tree.Walk
import Mathlib.Logic.Function.Iterate

/-!
# Walks with a stack

A walk pops the place that it lists next from a stack and pushes its children. Pending
places of all levels lie on that stack, and it may grow with every step; what shrinks
is the number of places still to be listed. In the end each place that can be reached
has been listed once, in the order of the addresses.
-/

namespace FlakeLint.Cursor

-- ---------------------------------------------------------------------------
-- The recursion
-- ---------------------------------------------------------------------------

mutual
/-- A place and all that is entered below it, child by child, with addresses from the place on. -/
def preOrder (enter : Cursor → Bool) (above : List Node) : Node → List (List Nat × Cursor)
  | .mk head children =>
    ([], ⟨.mk head children, above⟩) :: preOrderFrom enter (.mk head children :: above) 0 children

/-- The same for siblings that are numbered from `first` on. -/
def preOrderFrom (enter : Cursor → Bool) (above : List Node) (first : Nat) :
    List Node → List (List Nat × Cursor)
  | [] => []
  | n :: ns =>
    (if enter ⟨n, above⟩ then
      (preOrder enter above n).map fun (address, place) => (first :: address, place)
    else []) ++ preOrderFrom enter above (first + 1) ns
end

/-- From a place, going down to children that are entered leads along the address to the other. -/
inductive Reaches (enter : Cursor → Bool) : Cursor → List Nat → Cursor → Prop
  | self (c : Cursor) : Reaches enter c [] c
  | down {c child place : Cursor} {i : Nat} {address : List Nat} :
    c.children[i]? = some child → enter child = true → Reaches enter child address place →
      Reaches enter c (i :: address) place

variable {enter : Cursor → Bool}

theorem map_snd_preOrder (n : Node) (above : List Node) :
    (preOrder enter above n).map Prod.snd = visit enter [⟨n, above⟩] := by
  induction n using Node.induction_children generalizing above with
  | mk head children ih =>
    have hbelow (outer : List Node) (first : Nat) :
        (preOrderFrom enter outer first children).map Prod.snd = children.flatMap fun n =>
          if enter ⟨n, outer⟩ then visit enter [⟨n, outer⟩] else [] := by
      induction children generalizing first with
      | nil => rfl
      | cons n ns ihs =>
        have hfirst := ih n List.mem_cons_self outer
        have hrest := ihs (fun m hm => ih m (List.mem_cons_of_mem n hm)) (first + 1)
        simp only [preOrderFrom, List.map_append, List.flatMap_cons, hrest]
        split
        · simp [← hfirst]
        · rfl
    rw [visit_eq_node, preOrder, List.map_cons, hbelow]
    rfl

-- ---------------------------------------------------------------------------
-- The order of addresses
-- ---------------------------------------------------------------------------

theorem exists_of_mem_preOrderFrom {above : List Node} {first : Nat} {ns : List Node}
    {item : List Nat × Cursor} (h : item ∈ preOrderFrom enter above first ns) :
    ∃ i n address, ns[i]? = some n ∧ enter ⟨n, above⟩ = true ∧
      (address, item.2) ∈ preOrder enter above n ∧ item.1 = (first + i) :: address := by
  induction ns generalizing first with
  | nil => cases h
  | cons n ns ih =>
    rw [preOrderFrom, List.mem_append] at h
    rcases h with h | h
    · split at h
      · next henter =>
        obtain ⟨⟨address, place⟩, hmem, rfl⟩ := List.mem_map.1 h
        exact ⟨0, n, address, rfl, henter, hmem, rfl⟩
      · cases h
    · obtain ⟨i, m, address, hm, henter, hmem, heq⟩ := ih h
      refine ⟨i + 1, m, address, hm, henter, hmem, ?_⟩
      rw [heq, Nat.add_assoc, Nat.add_comm 1]

theorem mem_preOrderFrom {above : List Node} {i : Nat} {ns : List Node} {n : Node}
    {address : List Nat} {place : Cursor} (hn : ns[i]? = some n) (henter : enter ⟨n, above⟩ = true)
    (hmem : (address, place) ∈ preOrder enter above n) (first : Nat) :
    ((first + i) :: address, place) ∈ preOrderFrom enter above first ns := by
  induction ns generalizing first i with
  | nil => cases hn
  | cons m ns ih =>
    rw [preOrderFrom]
    cases i with
    | zero =>
      cases hn
      apply List.mem_append_left
      rw [if_pos henter]
      exact List.mem_map.2 ⟨_, hmem, rfl⟩
    | succ i =>
      apply List.mem_append_right
      have hlater := ih hn (first + 1)
      rwa [Nat.add_assoc, Nat.add_comm 1] at hlater

theorem pairwise_preOrderFrom {above : List Node} {ns : List Node}
    (h : ∀ n ∈ ns, ((preOrder enter above n).map Prod.fst).Pairwise (· < ·)) (first : Nat) :
    ((preOrderFrom enter above first ns).map Prod.fst).Pairwise (· < ·) := by
  induction ns generalizing first with
  | nil => exact List.Pairwise.nil
  | cons n ns ih =>
    have hrest := ih (fun m hm => h m (List.mem_cons_of_mem n hm)) (first + 1)
    rw [preOrderFrom, List.map_append, List.pairwise_append]
    refine ⟨?_, hrest, ?_⟩
    · split
      · have hfirst := h n List.mem_cons_self
        simp only [List.map_map, List.pairwise_map] at hfirst ⊢
        apply hfirst.imp
        intro a b hlt
        exact List.cons_lt_cons_iff.2 (.inr ⟨rfl, hlt⟩)
      · exact List.Pairwise.nil
    · intro address haddress later hlater
      obtain ⟨item, hitem, rfl⟩ := List.mem_map.1 haddress
      obtain ⟨other, hother, rfl⟩ := List.mem_map.1 hlater
      obtain ⟨i, -, rest, -, -, -, heq⟩ := exists_of_mem_preOrderFrom hother
      split at hitem
      · obtain ⟨inner, -, rfl⟩ := List.mem_map.1 hitem
        rw [heq]
        exact List.cons_lt_cons_iff.2 (.inl (by omega))
      · cases hitem

theorem pairwise_preOrder (n : Node) (above : List Node) :
    ((preOrder enter above n).map Prod.fst).Pairwise (· < ·) := by
  induction n using Node.induction_children generalizing above with
  | mk head children ih =>
    have hbelow : ((preOrderFrom enter (.mk head children :: above) 0 children).map
        Prod.fst).Pairwise (· < ·) := pairwise_preOrderFrom (fun n hn => ih n hn _) 0
    rw [preOrder, List.map_cons, List.pairwise_cons]
    refine ⟨?_, hbelow⟩
    intro address haddress
    obtain ⟨item, hitem, rfl⟩ := List.mem_map.1 haddress
    obtain ⟨i, -, rest, -, -, -, heq⟩ := exists_of_mem_preOrderFrom hitem
    rw [heq]
    exact List.nil_lt_cons _ _

theorem mem_preOrder_iff {n : Node} {above : List Node} {address : List Nat} {place : Cursor} :
    (address, place) ∈ preOrder enter above n ↔ Reaches enter ⟨n, above⟩ address place := by
  induction n using Node.induction_children generalizing above address with
  | mk head children ih =>
    rw [preOrder, List.mem_cons]
    constructor
    · rintro (heq | hmem)
      · cases heq
        exact .self _
      · obtain ⟨i, n, rest, hn, henter, hmem, heq⟩ := exists_of_mem_preOrderFrom hmem
        rw [show address = i :: rest by simpa using heq]
        have hchild : (Cursor.mk (.mk head children) above).children[i]? =
            some ⟨n, .mk head children :: above⟩ := by
          simp [Cursor.children, Node.children, hn]
        exact .down hchild henter ((ih n (List.mem_of_getElem? hn)).1 hmem)
    · intro hreaches
      cases hreaches with
      | self => exact .inl rfl
      | @down _ child _ i rest hchild henter hreaches =>
        right
        simp only [Cursor.children, List.getElem?_map, Option.map_eq_some_iff] at hchild
        obtain ⟨n, hn, rfl⟩ := hchild
        have hmem := mem_preOrderFrom hn henter ((ih n (List.mem_of_getElem? hn)).2 hreaches) 0
        rwa [Nat.zero_add] at hmem

-- ---------------------------------------------------------------------------
-- The stack
-- ---------------------------------------------------------------------------

/-- A walk under way: what it has listed, and the stack, whose last place is listed next. -/
structure Walker where
  listed : List Cursor
  stack : List Cursor

namespace Walker

def start (c : Cursor) : Walker :=
  ⟨[], [c]⟩

/-- Pops a place, lists it, and pushes those of its children that are entered, the first child last. With
nothing on the stack the walk is over. -/
def step (enter : Cursor → Bool) (w : Walker) : Walker :=
  match w.stack.getLast? with
  | none => w
  | some c => ⟨w.listed ++ [c], w.stack.dropLast ++ c.children.reverse.filter enter⟩

/-- What is still to be listed. -/
def pending (enter : Cursor → Bool) (w : Walker) : List Cursor :=
  visit enter w.stack.reverse

theorem pending_eq_nil_iff (enter : Cursor → Bool) {w : Walker} :
    w.pending enter = [] ↔ w.stack = [] := by
  unfold pending
  constructor
  · intro h
    cases hstack : w.stack.reverse with
    | nil => exact List.reverse_eq_nil_iff.1 hstack
    | cons c rest =>
      rw [hstack, visit_cons] at h
      cases h
  · intro h
    rw [h]
    exact visit_nil enter

/-- What is listed next is the first of what was pending, and the others are pending afterwards. -/
theorem step_pending (enter : Cursor → Bool) (w : Walker) :
    (w.step enter).listed = w.listed ++ (w.pending enter).take 1 ∧
      (w.step enter).pending enter = (w.pending enter).drop 1 := by
  obtain ⟨listed, stack⟩ := w
  rcases List.eq_nil_or_concat' stack with rfl | ⟨below, c, rfl⟩
  · simp [step, pending]
  · have hpending : pending enter ⟨listed, below ++ [c]⟩ =
        c :: visit enter (c.children.filter enter ++ below.reverse) := by
      unfold pending
      rw [List.reverse_append, List.reverse_singleton, List.singleton_append, visit_cons]
    have hstep : step enter ⟨listed, below ++ [c]⟩ =
        ⟨listed ++ [c], below ++ c.children.reverse.filter enter⟩ := by
      simp [step]
    have hreverse : (below ++ c.children.reverse.filter enter).reverse =
        c.children.filter enter ++ below.reverse := by
      simp [List.filter_reverse]
    rw [hstep, hpending]
    refine ⟨rfl, ?_⟩
    unfold pending
    rw [hreverse]
    rfl

/-- After so many steps, so many of the places of the walk are listed, and the others are pending. -/
theorem iterate_step (c : Cursor) (steps : Nat) :
    ((step enter)^[steps] (start c)).listed = (visit enter [c]).take steps ∧
      ((step enter)^[steps] (start c)).pending enter = (visit enter [c]).drop steps := by
  induction steps with
  | zero => exact ⟨rfl, rfl⟩
  | succ steps ih =>
    obtain ⟨hlisted, hpending⟩ := ih
    obtain ⟨hlisted', hpending'⟩ := step_pending enter ((step enter)^[steps] (start c))
    rw [Function.iterate_succ_apply', hlisted', hpending', hlisted, hpending, List.drop_drop]
    exact ⟨List.take_add.symm, rfl⟩

end Walker

-- ---------------------------------------------------------------------------
-- Both walks
-- ---------------------------------------------------------------------------

theorem length_walk (c : Cursor) : c.walk.length = c.node.size := by
  induction c using induction_children with
  | step c ih =>
    obtain ⟨⟨head, children⟩, above⟩ := c
    have hbelow : ∀ ns : List Node, (∀ n ∈ ns, n ∈ children) →
        ((ns.map fun n => Cursor.mk n (.mk head children :: above)).flatMap walk).length =
          Node.sizeOfAll ns := by
      intro ns hns
      induction ns with
      | nil => rfl
      | cons n ns ihs =>
        rw [List.forall_mem_cons] at hns
        rw [List.map_cons, List.flatMap_cons, List.length_append, ihs hns.2,
          ih _ (List.mem_map_of_mem hns.1), Node.sizeOfAll]
    rw [walk_eq, List.length_cons, Node.size, Nat.add_comm]
    exact congrArg (1 + ·) (hbelow children fun _ => id)

/-- A walk that enters less lists some of the places, in the same order. -/
theorem visit_sublist_walk (c : Cursor) : (visit enter [c]).Sublist c.walk := by
  induction c using induction_children with
  | step c ih =>
    have hbelow : ∀ cs : List Cursor, (∀ child ∈ cs, child ∈ c.children) →
        ((cs.filter enter).flatMap fun child => visit enter [child]).Sublist (cs.flatMap walk) := by
      intro cs hcs
      induction cs with
      | nil => exact List.Sublist.refl _
      | cons child cs ihs =>
        rw [List.forall_mem_cons] at hcs
        rw [List.flatMap_cons, List.filter_cons]
        split
        · exact (ih child hcs.1).append (ihs hcs.2)
        · exact (ihs hcs.2).trans (List.sublist_append_right _ _)
    rw [visit_eq, walk_eq]
    exact (hbelow c.children fun _ => id).cons_cons c

/-- The places are those that the recursion lists, which are all that can be reached, each under its own
address and in the order of the addresses; and the walk with the stack lists one of them with each
step, until the stack is empty behind the last one. -/
structure IsWalk (enter : Cursor → Bool) (c : Cursor) (places : List Cursor) : Prop where
  recursion : places = (preOrder enter c.above c.node).map Prod.snd
  reached : ∀ address place,
    (address, place) ∈ preOrder enter c.above c.node ↔ Reaches enter c address place
  increasing : ((preOrder enter c.above c.node).map Prod.fst).Pairwise (· < ·)
  listed : ∀ steps, ((Walker.step enter)^[steps] (.start c)).listed = places.take steps
  ends : ∀ steps, ((Walker.step enter)^[steps] (.start c)).stack = [] ↔ places.length ≤ steps

theorem isWalk_visit (enter : Cursor → Bool) (c : Cursor) : IsWalk enter c (visit enter [c]) where
  recursion := (map_snd_preOrder c.node c.above).symm
  reached _ _ := mem_preOrder_iff
  increasing := pairwise_preOrder c.node c.above
  listed steps := (Walker.iterate_step c steps).1
  ends steps := by
    rw [← Walker.pending_eq_nil_iff enter, (Walker.iterate_step c steps).2]
    exact List.drop_eq_nil_iff

/-- A walk ends after as many steps as the tree has nodes and lists the place and everything below it,
each once, a parent before its children and one child's tree before the next. The walk of a scope does
the same for what can be reached without a function, other than the start, on the way or at the end. -/
theorem walks_list_reached_places (c : Cursor) :
    IsWalk (fun _ => true) c c.walk ∧ c.walk.length = c.node.size ∧
      IsWalk (fun place => !place.kind.isFunction) c c.walkOwnScope ∧
      c.walkOwnScope.Sublist c.walk :=
  ⟨isWalk_visit _ c, length_walk c, isWalk_visit _ c, visit_sublist_walk c⟩

end FlakeLint.Cursor
