-- SUMMARY: Trees in the order of their source, and what that says of walks, chains and arguments.
import FlakeLint.Proofs.Tree.Around
import FlakeLint.Proofs.Tree.Nesting
import Mathlib.Data.List.Pairwise

/-!
# The order of the source

In a tree in the order of its source, siblings come one after the other, a call starts
with its callee and a member expression with its object. A walk over such a tree never
goes back behind the start of a node it has come upon, and a chain starts where its
last call does.
-/

namespace FlakeLint

-- ---------------------------------------------------------------------------
-- Places one after the other
-- ---------------------------------------------------------------------------

namespace Point

instance (first last : Point) : Decidable (first.IsUpTo last) :=
  inferInstanceAs (Decidable (_ ∨ _))

theorem IsUpTo.refl (place : Point) : place.IsUpTo place :=
  .inr ⟨rfl, le_rfl⟩

end Point

namespace Cursor

/-- What holds from a place to those below it, and from those below one of its children to those below
a later one, holds from each place of a walk to those it comes upon later. -/
theorem pairwise_walk {R : Cursor → Cursor → Prop} {c : Cursor}
    (hbelow : ∀ place ∈ c.walk, ∀ child ∈ place.children, ∀ later ∈ child.walk, R place later)
    (hbeside : ∀ place ∈ c.walk, place.children.Pairwise fun child child' =>
      ∀ former ∈ child.walk, ∀ later ∈ child'.walk, R former later) :
    c.walk.Pairwise R := by
  induction c using induction_children with
  | step c ih =>
    have hbelowChild {child place : Cursor} (hchild : child ∈ c.children)
        (hplace : place ∈ child.walk) : place ∈ c.walk :=
      mem_walk_iff.2 (.inr ⟨child, hchild, hplace⟩)
    rw [walk_eq, List.pairwise_cons, List.pairwise_flatMap]
    refine ⟨?_, ?_, hbeside c (mem_walk_self c)⟩
    · intro later hlater
      obtain ⟨child, hchild, hlater⟩ := List.mem_flatMap.1 hlater
      exact hbelow c (mem_walk_self c) child hchild later hlater
    · intro child hchild
      exact ih child hchild (fun place hplace => hbelow place (hbelowChild hchild hplace))
        fun place hplace => hbeside place (hbelowChild hchild hplace)

end Cursor

-- ---------------------------------------------------------------------------
-- Ordered trees
-- ---------------------------------------------------------------------------

namespace Node

/-- The children of the node come one after the other; if it is a call it starts with its callee, if it
is a member expression with its object. -/
structure IsOrdered (n : Node) : Prop where
  children : n.children.Pairwise fun former later => former.stop.IsUpTo later.start
  callee : n.kind = .call → ∀ callee, n.callee? = some callee → n.start = callee.start
  object : n.kind = .member → ∀ object, n.object? = some object → n.start = object.start

/-- All nodes of the tree are in the order of the source. -/
def InSourceOrder (n : Node) : Prop :=
  ∀ m, n.Contains m → m.IsOrdered

instance (n : Node) : Decidable n.IsOrdered :=
  decidable_of_iff
    ((n.children.Pairwise fun former later => former.stop.IsUpTo later.start) ∧
      (n.kind = .call → ∀ callee ∈ n.callee?, n.start = callee.start) ∧
      (n.kind = .member → ∀ object ∈ n.object?, n.start = object.start))
    ⟨fun ⟨hchildren, hcallee, hobject⟩ => ⟨hchildren, hcallee, hobject⟩,
      fun ⟨hchildren, hcallee, hobject⟩ => ⟨hchildren, hcallee, hobject⟩⟩

instance (n : Node) : Decidable n.InSourceOrder :=
  decidable_of_iff (∀ m ∈ n.nodes, m.IsOrdered) (by simp only [mem_nodes_iff, InSourceOrder])

variable {outer : Span} {n m : Node}

theorem InSourceOrder.of_contains (hm : n.Contains m) (h : n.InSourceOrder) : m.InSourceOrder :=
  fun l hl => h l (hm.trans hl)

theorem NestsIn.span (h : n.NestsIn outer) : n.start.IsUpTo n.stop := by
  cases h.self with
  | mk hstart hspan hstop heq hchildren => exact (hstart.trans hspan).trans hstop

theorem NestsIn.start_isUpTo (h : n.NestsIn outer) (hm : n.Contains m) : n.start.IsUpTo m.start := by
  cases NestsIn.of_contains hm h.self with
  | mk hstart hspan hstop heq hchildren =>
    simpa [start, head, heq] using hstart

theorem NestsIn.stop_isUpTo (h : n.NestsIn outer) (hm : n.Contains m) : m.stop.IsUpTo n.stop := by
  cases NestsIn.of_contains hm h.self with
  | mk hstart hspan hstop heq hchildren =>
    simpa [stop, head, heq] using hstop

/-- Of two children that differ, one stands before the other. -/
theorem IsOrdered.cases_children (h : n.IsOrdered) {child child' : Node}
    (hchild : child ∈ n.children) (hchild' : child' ∈ n.children) :
    child.stop.IsUpTo child'.start ∨ child = child' ∨ child'.stop.IsUpTo child.start := by
  have hapart : n.children.Pairwise fun child child' =>
      child.stop.IsUpTo child'.start ∨ child'.stop.IsUpTo child.start :=
    h.children.imp .inl
  have hsymm : Std.Symm fun child child' : Node =>
      child.stop.IsUpTo child'.start ∨ child'.stop.IsUpTo child.start :=
    ⟨fun _ _ => Or.symm⟩
  by_cases heq : child = child'
  · exact .inr (.inl heq)
  · rcases hapart.forall hchild hchild' heq with hbefore | hbehind
    · exact .inl hbefore
    · exact .inr (.inr hbehind)

/-- What lies below one child stops before anything below a later child starts. -/
theorem stop_isUpTo_start {child child' : Node} (h : n.NestsIn outer)
    (hchild : child ∈ n.children) (hchild' : child' ∈ n.children)
    (hbefore : child.stop.IsUpTo child'.start) {former later : Node}
    (hformer : child.Contains former) (hlater : child'.Contains later) :
    former.stop.IsUpTo later.start := by
  have hnested := NestsIn.of_contains (contains_of_mem_children hchild) h
  have hnested' := NestsIn.of_contains (contains_of_mem_children hchild') h
  exact ((hnested.stop_isUpTo hformer).trans hbefore).trans (hnested'.start_isUpTo hlater)

/-- Of two nodes below children of a node, unless that is the same child, the first one stops before the
second one starts, or starts no earlier than it. -/
theorem cases_below {child child' below below' : Node} (hnested : n.NestsIn outer)
    (hordered : n.IsOrdered) (hchild : child ∈ n.children) (hchild' : child' ∈ n.children)
    (hbelow : child.Contains below) (hbelow' : child'.Contains below') :
    below.stop.IsUpTo below'.start ∨ child = child' ∨ below'.start.IsUpTo below.start := by
  rcases hordered.cases_children hchild hchild' with hbefore | heq | hbehind
  · exact .inl (stop_isUpTo_start hnested hchild hchild' hbefore hbelow hbelow')
  · exact .inr (.inl heq)
  · have hspan := (NestsIn.of_contains (.step hchild' hbelow') hnested).span
    exact .inr (.inr (hspan.trans
      (stop_isUpTo_start hnested hchild' hchild hbehind hbelow' hbelow)))

/-- A chain starts where its last call does. -/
theorem start_chainStart (hordered : n.InSourceOrder) (hcall : n.kind = .call) :
    n.chainStart.1.start = n.start := by
  fun_induction chainStart n with
  | case1 n _ => rfl
  | case2 n inner hreceiver hinner ih =>
    obtain ⟨callee, hcallee, hobject⟩ := Option.bind_eq_some_iff.1 hreceiver
    obtain ⟨hcallee, hmember⟩ := Option.filter_eq_some_iff.1 hcallee
    have hfirst : n.start = callee.start := (hordered n (.self n)).callee hcall callee hcallee
    have hsecond : callee.start = inner.start :=
      (hordered callee (contains_of_child? hcallee)).object (of_decide_eq_true hmember) inner hobject
    rw [ih (hordered.of_contains (contains_of_receiver? hreceiver)) hinner, hfirst, hsecond]
  | case3 n _ _ _ => rfl

/-- Whatever lies below a call, its arguments as a whole apart, stops before the first argument starts,
or starts no earlier than that. -/
theorem cases_below_call {argument child below : Node} (hnested : n.NestsIn outer)
    (hordered : n.InSourceOrder) (hargument : n.arguments.head? = some argument)
    (hchild : child ∈ n.children) (hbelow : child.Contains below) :
    below.kind = .arguments ∨ below.stop.IsUpTo argument.start ∨
      argument.start.IsUpTo below.start := by
  have hmem := List.mem_of_head? hargument
  unfold arguments at hmem
  split at hmem
  · next args hargs =>
    split at hmem
    · next hkind =>
      have hargs := mem_children_of_child? hargs
      have hargument := (List.mem_filter.1 hmem).1
      have hinside := contains_of_mem_children hargument
      rcases cases_below hnested (hordered n (.self n)) hchild hargs hbelow hinside with
        hbefore | heq | hbehind
      · exact .inr (.inl hbefore)
      · subst heq
        cases hbelow with
        | self => exact .inl hkind
        | @step _ part _ hpart hbelow =>
          have hwithin := NestsIn.of_contains (contains_of_mem_children hargs) hnested
          have hparts := hordered child (contains_of_mem_children hargs)
          rcases cases_below hwithin hparts hpart hargument hbelow (.self argument) with
            hbefore | heq | hbehind
          · exact .inr (.inl hbefore)
          · subst heq
            exact .inr (.inr ((NestsIn.of_contains hinside hwithin).start_isUpTo hbelow))
          · exact .inr (.inr hbehind)
      · exact .inr (.inr hbehind)
    · cases hmem
  · cases hmem

end Node

namespace Cursor

variable {outer : Span} {c : Cursor}

/-- What a walk comes upon below one child of a place stops before what it comes upon below a later
child starts. -/
theorem pairwise_children (hnested : c.node.NestsIn outer) (hordered : c.node.InSourceOrder) :
    c.children.Pairwise fun child child' => ∀ former ∈ child.walk, ∀ later ∈ child'.walk,
      former.node.stop.IsUpTo later.node.start := by
  unfold children
  rw [List.pairwise_map]
  refine List.Pairwise.imp_of_mem ?_ (hordered c.node (.self c.node)).children
  intro child child' hchild hchild' hbefore former hformer later hlater
  exact Node.stop_isUpTo_start hnested hchild hchild' hbefore (contains_of_mem_walk hformer)
    (contains_of_mem_walk hlater)

/-- A walk never goes back behind a start. -/
theorem pairwise_start_walk (hnested : c.node.NestsIn outer) (hordered : c.node.InSourceOrder) :
    c.walk.Pairwise fun former later => former.node.start.IsUpTo later.node.start := by
  refine pairwise_walk ?_ ?_
  · intro place hplace child hchild later hlater
    obtain ⟨n, hn, rfl⟩ := List.mem_map.1 hchild
    exact (Node.NestsIn.of_contains (contains_of_mem_walk hplace) hnested).start_isUpTo
      (.step hn (contains_of_mem_walk hlater))
  · intro place hplace
    have hnested' := Node.NestsIn.of_contains (contains_of_mem_walk hplace) hnested
    have hordered' := hordered.of_contains (contains_of_mem_walk hplace)
    refine List.Pairwise.imp_of_mem ?_ (pairwise_children hnested' hordered')
    intro child child' hchild _ hbefore former hformer later hlater
    obtain ⟨n, hn, rfl⟩ := List.mem_map.1 hchild
    have hspan := (Node.NestsIn.of_contains (.step hn (contains_of_mem_walk hformer)) hnested').span
    exact hspan.trans (hbefore former hformer later hlater)

end Cursor

-- ---------------------------------------------------------------------------
-- Columns
-- ---------------------------------------------------------------------------

/-- With the table of lines of a text, columns in characters grow with those in bytes. -/
theorem charColumn_mono (cs : List Char) (row : Nat) {column column' : Nat} (h : column ≤ column') :
    charColumn (byteLines (Utf8.encode cs)) row column ≤
      charColumn (byteLines (Utf8.encode cs)) row column' := by
  cases hline : (Text.splitOn '\n' cs)[row]? with
  | some line =>
    rw [charColumn_eq hline, charColumn_eq hline]
    exact_mod_cast Utf8.startedBefore_mono line h
  | none =>
    have hnone : (byteLines (Utf8.encode cs))[row]? = none := by
      unfold byteLines
      rw [Utf8.splitOn_encode, List.getElem?_map, hline, Option.map_none]
    unfold charColumn
    rw [if_pos (Int.natCast_nonneg row), Int.toNat_natCast, hnone]
    dsimp only
    exact_mod_cast h

end FlakeLint
