-- SUMMARY: Addresses of nodes: the indices of children on the way down to them.
import FlakeLint.Proofs.Tree.Walk
import Mathlib.Data.List.Nodup

/-!
# Addresses

Equal nodes may stand at several places of a tree, and even equal places next to each
other. What tells nodes apart is the way down to them: which child to take at each
step. A walk comes upon every address once.
-/

namespace FlakeLint

-- ---------------------------------------------------------------------------
-- The addresses of a tree
-- ---------------------------------------------------------------------------

namespace Node

mutual
/-- The addresses of a tree, in the order of a walk. -/
def addresses : Node → List (List Nat)
  | .mk _ children => [] :: addressesFrom 0 children

/-- The addresses of siblings that are numbered from `first` on. -/
def addressesFrom (first : Nat) : List Node → List (List Nat)
  | [] => []
  | n :: ns => n.addresses.map (first :: ·) ++ addressesFrom (first + 1) ns
end

theorem addresses_eq (n : Node) : n.addresses = [] :: addressesFrom 0 n.children := by
  cases n
  rw [addresses, children]

theorem exists_of_mem_addressesFrom {first : Nat} {ns : List Node} {address : List Nat}
    (h : address ∈ addressesFrom first ns) :
    ∃ i rest, address = i :: rest ∧ first ≤ i := by
  induction ns generalizing first with
  | nil => simp [addressesFrom] at h
  | cons n ns ih =>
    rw [addressesFrom, List.mem_append, List.mem_map] at h
    rcases h with ⟨rest, -, rfl⟩ | h
    · exact ⟨first, rest, rfl, Nat.le_refl first⟩
    · obtain ⟨i, rest, rfl, hi⟩ := ih h
      exact ⟨i, rest, rfl, Nat.le_of_succ_le hi⟩

theorem nodup_addressesFrom {ns : List Node} (h : ∀ n ∈ ns, n.addresses.Nodup) (first : Nat) :
    (addressesFrom first ns).Nodup := by
  induction ns generalizing first with
  | nil => simp [addressesFrom]
  | cons n ns ih =>
    have hfirst : (n.addresses.map (first :: ·)).Nodup :=
      (h n List.mem_cons_self).map fun _ _ heq => (List.cons.inj heq).2
    have hrest := ih (fun m hm => h m (List.mem_cons_of_mem n hm)) (first + 1)
    have hapart : (n.addresses.map (first :: ·)).Disjoint (addressesFrom (first + 1) ns) := by
      intro address hleft hright
      obtain ⟨rest, -, rfl⟩ := List.mem_map.1 hleft
      obtain ⟨i, rest', heq, hi⟩ := exists_of_mem_addressesFrom hright
      have hindex := (List.cons.inj heq).1
      omega
    rw [addressesFrom]
    exact hfirst.append hrest hapart

theorem nodup_addresses (n : Node) : n.addresses.Nodup := by
  induction n using induction_children with
  | mk head children ih =>
    have hroot : [] ∉ addressesFrom 0 children := by
      intro hmem
      obtain ⟨i, rest, heq, -⟩ := exists_of_mem_addressesFrom hmem
      cases heq
    rw [addresses]
    exact List.nodup_cons.2 ⟨hroot, nodup_addressesFrom ih 0⟩

end Node

-- ---------------------------------------------------------------------------
-- Places at addresses
-- ---------------------------------------------------------------------------

namespace Cursor

/-- The place at an address, seen from another place. -/
def at? (c : Cursor) : List Nat → Option Cursor
  | [] => some c
  | i :: rest => c.children[i]?.bind fun child => child.at? rest

@[simp]
theorem at?_nil (c : Cursor) : c.at? [] = some c := rfl

theorem at?_cons (c : Cursor) (i : Nat) (rest : List Nat) :
    c.at? (i :: rest) = c.children[i]?.bind fun child => child.at? rest := rfl

theorem at?_append (c : Cursor) (address rest : List Nat) :
    c.at? (address ++ rest) = (c.at? address).bind fun place => place.at? rest := by
  induction address generalizing c with
  | nil => rfl
  | cons i address ih =>
    rw [List.cons_append, at?_cons, at?_cons]
    cases c.children[i]? with
    | none => rfl
    | some child => exact ih child

/-- The places of the children behind some others are at the addresses numbered from there on. -/
theorem map_at?_addressesFrom {c : Cursor} (before : List Cursor) {ns : List Node}
    (hchildren : c.children = before ++ ns.map fun n => ⟨n, c.node :: c.above⟩)
    (hwalks : ∀ child ∈ c.children, child.node.addresses.map child.at? = child.walk.map some) :
    (Node.addressesFrom before.length ns).map c.at? =
      (ns.flatMap fun n => (Cursor.mk n (c.node :: c.above)).walk).map some := by
  induction ns generalizing before with
  | nil => rfl
  | cons n ns ih =>
    have hchild : c.children[before.length]? = some ⟨n, c.node :: c.above⟩ := by
      simp [hchildren]
    have hfirst : (n.addresses.map (before.length :: ·)).map c.at? =
        (Cursor.mk n (c.node :: c.above)).walk.map some := by
      rw [List.map_map, ← hwalks _ (List.mem_of_getElem? hchild)]
      exact List.map_congr_left fun rest _ => by simp [at?_cons, hchild]
    have hrest : (Node.addressesFrom (before.length + 1) ns).map c.at? =
        (ns.flatMap fun n => (Cursor.mk n (c.node :: c.above)).walk).map some := by
      have hlater := ih (before ++ [⟨n, c.node :: c.above⟩]) (by simp [hchildren])
      simpa using hlater
    rw [Node.addressesFrom, List.map_append, hfirst, hrest, List.flatMap_cons, List.map_append]

/-- A walk comes upon the places at all addresses, in their order. -/
theorem map_at?_addresses (c : Cursor) : c.node.addresses.map c.at? = c.walk.map some := by
  induction c using induction_children with
  | step c ih =>
    have hbelow := map_at?_addressesFrom [] rfl ih
    rw [Node.addresses_eq, walk_eq, List.map_cons, List.map_cons, at?_nil]
    unfold children
    rw [List.flatMap_map]
    exact congrArg (some c :: ·) hbelow

end Cursor

end FlakeLint
