-- SUMMARY: What lies below a node, and the walks as recursions over children.
import FlakeLint.Syntax.Function
import Mathlib.Data.List.Basic

/-!
# Walks

A walk is the place itself followed by the walks of its children. From that
follows what the places of a walk have in common: their nodes lie below the node
that the walk starts at, and the nodes around the start are around all of them.
-/

namespace FlakeLint

namespace Node

/-! ## Equality of trees -/

mutual
/-- Two trees can be compared node by node. -/
def decideEq : (n m : Node) → Decidable (n = m)
  | .mk head children, .mk head' children' =>
    match decEq head head', decideEqAll children children' with
    | .isTrue hhead, .isTrue hchildren => .isTrue (by rw [hhead, hchildren])
    | .isFalse hhead, _ => .isFalse fun h => hhead (Node.mk.inj h).1
    | _, .isFalse hchildren => .isFalse fun h => hchildren (Node.mk.inj h).2

def decideEqAll : (ns ms : List Node) → Decidable (ns = ms)
  | [], [] => .isTrue rfl
  | [], _ :: _ => .isFalse nofun
  | _ :: _, [] => .isFalse nofun
  | n :: ns, m :: ms =>
    match decideEq n m, decideEqAll ns ms with
    | .isTrue hfirst, .isTrue hrest => .isTrue (by rw [hfirst, hrest])
    | .isFalse hfirst, _ => .isFalse fun h => hfirst (List.cons.inj h).1
    | _, .isFalse hrest => .isFalse fun h => hrest (List.cons.inj h).2
end

instance : DecidableEq Node := decideEq

/-! ## Below a node -/

/-- The other node is the node itself or lies somewhere below it. -/
inductive Contains : Node → Node → Prop where
  | self (n : Node) : Contains n n
  | step {n child m : Node} : child ∈ n.children → Contains child m → Contains n m

theorem Contains.trans {n m l : Node} (hm : n.Contains m) (hl : m.Contains l) : n.Contains l := by
  induction hm with
  | self => exact hl
  | step hc _ ih => exact .step hc (ih hl)

theorem contains_of_mem_children {n child : Node} (h : child ∈ n.children) : n.Contains child :=
  .step h (.self child)

theorem contains_of_mem_parts {n part : Node} (h : part ∈ n.parts) : n.Contains part :=
  contains_of_mem_children (List.mem_filter.1 h).1

theorem contains_of_child? {n child : Node} {role : Role} (h : n.child? role = some child) :
    n.Contains child :=
  contains_of_mem_children (mem_children_of_child? h)

/-- What holds of a node if it holds of its children holds of all nodes. -/
@[elab_as_elim]
theorem induction_children {motive : Node → Prop}
    (mk : ∀ head children, (∀ child ∈ children, motive child) → motive (.mk head children)) :
    ∀ n, motive n
  | .mk head children => mk head children fun child _ => induction_children mk child

mutual
/-- Does every node of a tree satisfy `p`? -/
def everywhere (p : Head → Bool) : Node → Bool
  | .mk head children => p head && everywhereIn p children

def everywhereIn (p : Head → Bool) : List Node → Bool
  | [] => true
  | n :: ns => n.everywhere p && everywhereIn p ns
end

theorem everywhereIn_eq_true {p : Head → Bool} {ns : List Node} :
    everywhereIn p ns = true ↔ ∀ n ∈ ns, n.everywhere p = true := by
  induction ns with
  | nil => simp [everywhereIn]
  | cons n ns ih => simp [everywhereIn, ih]

theorem everywhere_of_contains {p : Head → Bool} {n m : Node} (hm : n.Contains m)
    (h : n.everywhere p = true) : m.everywhere p = true := by
  induction hm with
  | self => exact h
  | @step n child m hc _ ih =>
    obtain ⟨head, children⟩ := n
    rw [everywhere, Bool.and_eq_true, everywhereIn_eq_true] at h
    exact ih (h.2 child hc)

theorem head_of_everywhere {p : Head → Bool} {n : Node} (h : n.everywhere p = true) :
    p n.head = true := by
  obtain ⟨head, children⟩ := n
  rw [everywhere, Bool.and_eq_true] at h
  exact h.1

/-! ## Parts of calls and functions -/

theorem contains_of_mem_arguments {n argument : Node} (h : argument ∈ n.arguments) :
    n.Contains argument := by
  unfold arguments at h
  split at h
  · next args hargs =>
    split at h
    · exact (contains_of_child? hargs).trans (contains_of_mem_parts h)
    · cases h
  · cases h

theorem contains_of_receiver? {n receiver : Node} (h : n.receiver? = some receiver) :
    n.Contains receiver := by
  obtain ⟨callee, hcallee, hreceiver⟩ := Option.bind_eq_some_iff.1 h
  have hfound := (Option.filter_eq_some_iff.1 hcallee).1
  exact (contains_of_child? hfound).trans (contains_of_child? hreceiver)

theorem contains_chainStart (n : Node) : n.Contains n.chainStart.1 := by
  fun_induction chainStart n with
  | case1 n h => exact .self n
  | case2 n inner h hk ih => exact (contains_of_receiver? h).trans ih
  | case3 n inner h hk => exact .self n

theorem contains_of_blockBody? {n body : Node} (h : n.blockBody? = some body) :
    n.Contains body :=
  contains_of_child? (Option.filter_eq_some_iff.1 h).1

end Node

namespace Cursor

/-! ## Walks as recursions -/

@[simp]
theorem visit_nil (enter : Cursor → Bool) : visit enter [] = [] := by
  rw [visit]

theorem visit_cons (enter : Cursor → Bool) (c : Cursor) (pending : List Cursor) :
    visit enter (c :: pending) = c :: visit enter (c.children.filter enter ++ pending) := by
  rw [visit]

theorem visit_append (enter : Cursor → Bool) (cs ds : List Cursor) :
    visit enter (cs ++ ds) = visit enter cs ++ visit enter ds := by
  induction cs using visit.induct enter with
  | case1 => simp
  | case2 c pending ih =>
    rw [List.cons_append, visit_cons, visit_cons, ← List.append_assoc, ih, List.cons_append]

theorem visit_eq_flatMap (enter : Cursor → Bool) (cs : List Cursor) :
    visit enter cs = cs.flatMap fun c => visit enter [c] := by
  induction cs with
  | nil => simp
  | cons c cs ih =>
    rw [← List.singleton_append, visit_append, ih, List.singleton_append, List.flatMap_cons]

theorem visit_eq (enter : Cursor → Bool) (c : Cursor) :
    visit enter [c] = c :: (c.children.filter enter).flatMap fun child => visit enter [child] := by
  rw [visit_cons, List.append_nil, visit_eq_flatMap]

theorem walk_eq (c : Cursor) : c.walk = c :: c.children.flatMap walk := by
  unfold walk
  rw [visit_eq, List.filter_true]

theorem walkOwnScope_eq (c : Cursor) :
    c.walkOwnScope =
      c :: (c.children.filter fun child => !child.kind.isFunction).flatMap walkOwnScope :=
  visit_eq _ c

/-- A walk lists the place and then, child by child, what is found below those it enters. -/
theorem visit_eq_node (enter : Cursor → Bool) (c : Cursor) :
    visit enter [c] = c :: c.node.children.flatMap fun n =>
      if enter ⟨n, c.node :: c.above⟩ then visit enter [⟨n, c.node :: c.above⟩] else [] := by
  rw [visit_eq]
  unfold children
  congr 1
  induction c.node.children with
  | nil => rfl
  | cons n ns ih =>
    rw [List.map_cons, List.filter_cons, List.flatMap_cons, ← ih]
    split
    · rw [List.flatMap_cons]
    · rw [List.nil_append]

/-- What holds of a place if it holds of the places of its children holds of all places. -/
@[elab_as_elim]
theorem induction_children {motive : Cursor → Prop}
    (step : ∀ c, (∀ child ∈ c.children, motive child) → motive c) (c : Cursor) : motive c := by
  obtain ⟨n, above⟩ := c
  induction n using Node.induction_children generalizing above with
  | mk head children ih =>
    apply step
    intro child hchild
    obtain ⟨n, hn, rfl⟩ := List.mem_map.1 hchild
    exact ih n hn _

theorem contains_of_mem_walk {c d : Cursor} (h : d ∈ c.walk) : c.node.Contains d.node := by
  induction c using induction_children with
  | step c ih =>
    rw [walk_eq, List.mem_cons, List.mem_flatMap] at h
    rcases h with rfl | ⟨child, hchild, hd⟩
    · exact .self _
    · have hbelow := ih child hchild hd
      obtain ⟨n, hn, rfl⟩ := List.mem_map.1 hchild
      exact .step hn hbelow

theorem contains_of_mem_calls {c d : Cursor} (h : d ∈ c.calls) : c.node.Contains d.node :=
  contains_of_mem_walk (List.mem_filter.1 h).1

/-! ## More nodes around a place -/

/-- The same place with further nodes around it. -/
def under (outer : List Node) (c : Cursor) : Cursor :=
  ⟨c.node, c.above ++ outer⟩

theorem children_under (outer : List Node) (c : Cursor) :
    (c.under outer).children = c.children.map (under outer) := by
  simp [children, under]

theorem walk_under (outer : List Node) (c : Cursor) :
    (c.under outer).walk = c.walk.map (under outer) := by
  induction c using induction_children with
  | step c ih =>
    rw [walk_eq, walk_eq, children_under, List.map_cons, List.flatMap_map, List.map_flatMap]
    congr 1
    exact List.flatMap_congr ih

end Cursor

end FlakeLint
