-- SUMMARY: What lies around the places of a walk: the way down to them, parents, the nearest place of a kind.
import FlakeLint.Proofs.Tree.Walk

/-!
# Around a place

With each place a walk keeps the nodes around it. They begin with the nodes on the
way down from the start of the walk and go on with those around the start. So the
parents of places of a whole tree are places of it too, and a walk that does not
enter functions lists the places whose nearest function is the one it starts in.
-/

namespace FlakeLint.Cursor

variable {c d : Cursor}

-- ---------------------------------------------------------------------------
-- The way down
-- ---------------------------------------------------------------------------

/-- The nodes from a place outwards, the place itself first. -/
def path (c : Cursor) : List Node :=
  c.node :: c.above

theorem above_of_mem_children {child : Cursor} (h : child ∈ c.children) : child.above = c.path := by
  obtain ⟨n, -, rfl⟩ := List.mem_map.1 h
  rfl

theorem mem_walk_iff : d ∈ c.walk ↔ d = c ∨ ∃ child ∈ c.children, d ∈ child.walk := by
  rw [walk_eq, List.mem_cons, List.mem_flatMap]

theorem mem_walk_self (c : Cursor) : c ∈ c.walk :=
  mem_walk_iff.2 (.inl rfl)

/-- A walk comes by every node below its start. -/
theorem exists_mem_walk_of_contains {n m : Node} (h : n.Contains m) (above : List Node) :
    ∃ d ∈ walk ⟨n, above⟩, d.node = m := by
  induction h generalizing above with
  | self n => exact ⟨_, mem_walk_self _, rfl⟩
  | @step n child m hchild _ ih =>
    obtain ⟨d, hd, hnode⟩ := ih (n :: above)
    exact ⟨d, mem_walk_iff.2 (.inr ⟨_, List.mem_map_of_mem hchild, hd⟩), hnode⟩

/-- A node lies below another one if a walk comes by it. -/
instance (n m : Node) : Decidable (n.Contains m) :=
  decidable_of_iff (∃ d ∈ (ofRoot n).walk, d.node = m)
    ⟨fun ⟨_, hd, hnode⟩ => hnode ▸ contains_of_mem_walk hd,
      fun h => exists_mem_walk_of_contains h []⟩

theorem mem_walkOwnScope_iff_children :
    d ∈ c.walkOwnScope ↔
      d = c ∨ ∃ child ∈ c.children, child.kind.isFunction = false ∧ d ∈ child.walkOwnScope := by
  rw [walkOwnScope_eq, List.mem_cons, List.mem_flatMap]
  simp only [List.mem_filter, Bool.not_eq_true', and_assoc]

theorem exists_above_eq_of_mem_walk (h : d ∈ c.walk) :
    d = c ∨ ∃ between, d.above = between ++ c.path := by
  induction c using induction_children with
  | step c ih =>
    rcases mem_walk_iff.1 h with rfl | ⟨child, hchild, hd⟩
    · exact .inl rfl
    · right
      have habove := above_of_mem_children hchild
      rcases ih child hchild hd with rfl | ⟨between, hbetween⟩
      · exact ⟨[], habove⟩
      · refine ⟨between ++ [child.node], ?_⟩
        rw [hbetween, path, habove, List.append_assoc, List.singleton_append]

/-- The parent of a place other than the start of the walk is on the walk. -/
theorem parent?_mem_walk {parent : Cursor} (h : d ∈ c.walk) (hparent : d.parent? = some parent) :
    d = c ∨ parent ∈ c.walk := by
  induction c using induction_children with
  | step c ih =>
    rcases mem_walk_iff.1 h with rfl | ⟨child, hchild, hd⟩
    · exact .inl rfl
    · right
      rcases ih child hchild hd with rfl | hmem
      · unfold parent? at hparent
        rw [above_of_mem_children hchild] at hparent
        cases hparent
        exact mem_walk_self c
      · exact mem_walk_iff.2 (.inr ⟨child, hchild, hmem⟩)

theorem parent?_mem_walk_ofRoot {root : Node} {parent : Cursor} (h : d ∈ (ofRoot root).walk)
    (hparent : d.parent? = some parent) : parent ∈ (ofRoot root).walk := by
  rcases parent?_mem_walk h hparent with rfl | hmem
  · cases hparent
  · exact hmem

-- ---------------------------------------------------------------------------
-- Ancestors
-- ---------------------------------------------------------------------------

/-- The ancestors of a place are those whose nodes end the nodes around it. -/
theorem mem_ancestors_iff : d ∈ c.ancestors ↔ ∃ between, c.above = between ++ d.path := by
  obtain ⟨n, above⟩ := c
  unfold ancestors
  dsimp only
  induction above with
  | nil => simp [outward, path]
  | cons m above ih =>
    rw [outward, List.mem_cons, ih]
    constructor
    · rintro (rfl | ⟨between, rfl⟩)
      · exact ⟨[], rfl⟩
      · exact ⟨m :: between, rfl⟩
    · rintro ⟨between, hsplit⟩
      cases between with
      | nil =>
        obtain ⟨rfl, rfl⟩ := List.cons.inj hsplit
        exact .inl rfl
      | cons _ between => exact .inr ⟨between, (List.cons.inj hsplit).2⟩

theorem eq_or_mem_ancestors_of_mem_walk (h : d ∈ c.walk) : d = c ∨ c ∈ d.ancestors := by
  rw [mem_ancestors_iff]
  exact exists_above_eq_of_mem_walk h

-- ---------------------------------------------------------------------------
-- The nearest place of a kind
-- ---------------------------------------------------------------------------

/-- The nearest place around this one whose kind satisfies `p`. -/
def nearest? (p : Kind → Bool) (c : Cursor) : Option Cursor :=
  c.ancestors.find? fun place => p place.kind

variable {p q : Kind → Bool}

@[simp]
theorem nearest?_nil (n : Node) : nearest? p ⟨n, []⟩ = none := rfl

theorem nearest?_cons (n m : Node) (above : List Node) :
    nearest? p ⟨n, m :: above⟩ = if p m.kind then some ⟨m, above⟩ else nearest? p ⟨m, above⟩ := by
  unfold nearest? ancestors
  rw [outward, List.find?_cons]
  dsimp only [kind]
  cases p m.kind with
  | true => rfl
  | false => rfl

/-- A place whose kind counts is the nearest one exactly if none of the kinds in between counts. -/
theorem nearest?_eq_some_iff (hc : p c.kind = true) (n : Node) (between : List Node) :
    nearest? p ⟨n, between ++ c.path⟩ = some c ↔ ∀ m ∈ between, p m.kind = false := by
  induction between generalizing n with
  | nil =>
    have hkind : p c.node.kind = true := hc
    simp [path, nearest?_cons, hkind]
  | cons m between ih =>
    rw [List.cons_append, nearest?_cons, List.forall_mem_cons]
    cases hm : p m.kind with
    | true =>
      -- The place found would have as many nodes around it as one further out.
      refine iff_of_false (fun heq => ?_) (by simp)
      have hlength := congrArg (fun found => (found.map (List.length ∘ above)).getD 0) heq
      simp [path] at hlength
      omega
    | false => simpa using ih m

/-- The nearest place whose kind counts is the one behind all others whose kinds do not. -/
theorem nearest?_eq_some_iff_exists :
    c.nearest? p = some d ↔
      p d.kind = true ∧ ∃ between, c.above = between ++ d.path ∧ ∀ m ∈ between, p m.kind = false := by
  obtain ⟨n, above⟩ := c
  constructor
  · intro h
    have hkind : p d.kind = true := List.find?_some (p := fun place : Cursor => p place.kind) h
    obtain ⟨between, habove⟩ := mem_ancestors_iff.1 (List.mem_of_find?_eq_some h)
    cases habove
    exact ⟨hkind, between, rfl, (nearest?_eq_some_iff hkind n between).1 h⟩
  · rintro ⟨hkind, between, habove, hbetween⟩
    cases habove
    exact (nearest?_eq_some_iff hkind n between).2 hbetween

/-- If more kinds count, the nearest place is the same, or one that does not count for the fewer comes
first. -/
theorem nearest?_iff_of_le (hle : ∀ k, p k = true → q k = true) {found : Cursor} :
    c.nearest? p = some found ↔
      (c.nearest? q = some found ∧ p found.kind = true) ∨
      ∃ first, c.nearest? q = some first ∧ p first.kind = false ∧ first.nearest? p = some found := by
  obtain ⟨n, above⟩ := c
  induction above generalizing n with
  | nil => simp
  | cons m above ih =>
    rw [nearest?_cons, nearest?_cons]
    cases hp : p m.kind with
    | true =>
      have hkind : p (Cursor.kind ⟨m, above⟩) = true := hp
      rw [if_pos rfl, if_pos (hle _ hp)]
      constructor
      · intro heq
        exact .inl ⟨heq, Option.some_inj.1 heq ▸ hkind⟩
      · rintro (⟨heq, -⟩ | ⟨first, heq, hfirst, -⟩)
        · exact heq
        · rw [← Option.some_inj.1 heq, hkind] at hfirst
          cases hfirst
    | false =>
      have hkind : p (Cursor.kind ⟨m, above⟩) = false := hp
      rw [if_neg Bool.false_ne_true]
      cases hq : q m.kind with
      | true =>
        rw [if_pos rfl]
        constructor
        · exact fun heq => .inr ⟨_, rfl, hkind, heq⟩
        · rintro (⟨heq, hfound⟩ | ⟨first, heq, -, hnearest⟩)
          · rw [← Option.some_inj.1 heq, hkind] at hfound
            cases hfound
          · rwa [← Option.some_inj.1 heq] at hnearest
      | false => exact ih m

-- ---------------------------------------------------------------------------
-- Scopes
-- ---------------------------------------------------------------------------

/-- The scope of a place ends at the functions on the way down. -/
theorem mem_walkOwnScope_iff :
    d ∈ c.walkOwnScope ↔
      d = c ∨ d ∈ c.walk ∧ d.kind.isFunction = false ∧
        ∃ between, d.above = between ++ c.path ∧ ∀ m ∈ between, m.kind.isFunction = false := by
  induction c using induction_children with
  | step c ih =>
    rw [mem_walkOwnScope_iff_children]
    refine or_congr_right ⟨?_, ?_⟩
    · rintro ⟨child, hchild, hkind, hd⟩
      have habove := above_of_mem_children hchild
      rcases (ih child hchild).1 hd with rfl | ⟨hwalk, hplain, between, hbetween, hnone⟩
      · exact ⟨mem_walk_iff.2 (.inr ⟨d, hchild, mem_walk_self d⟩), hkind, [], habove, by simp⟩
      · refine ⟨mem_walk_iff.2 (.inr ⟨child, hchild, hwalk⟩), hplain, between ++ [child.node], ?_, ?_⟩
        · rw [hbetween, path, habove, List.append_assoc, List.singleton_append]
        · exact List.forall_mem_append.2 ⟨hnone, List.forall_mem_singleton.2 hkind⟩
    · rintro ⟨hwalk, hplain, between, hbetween, hnone⟩
      rcases mem_walk_iff.1 hwalk with rfl | ⟨child, hchild, hd⟩
      · have hlength := congrArg List.length hbetween
        simp [path] at hlength
        omega
      · have habove := above_of_mem_children hchild
        rcases exists_above_eq_of_mem_walk hd with rfl | ⟨inner, hinner⟩
        · exact ⟨d, hchild, hplain, mem_walkOwnScope_iff_children.2 (.inl rfl)⟩
        -- What lies between consists of what lies below the child, and the child.
        · have hsplit : between = inner ++ [child.node] := by
            refine (List.append_left_inj c.path).1 ?_
            rw [← hbetween, hinner, path, habove, List.append_assoc, List.singleton_append]
          rw [hsplit, List.forall_mem_append, List.forall_mem_singleton] at hnone
          exact ⟨child, hchild, hnone.2,
            (ih child hchild).2 (.inr ⟨hd, hplain, inner, hinner, hnone.1⟩)⟩

end FlakeLint.Cursor

-- ---------------------------------------------------------------------------
-- All nodes of a tree
-- ---------------------------------------------------------------------------

namespace FlakeLint.Node

/-- The node and all nodes below it, in source order. -/
def nodes (n : Node) : List Node :=
  (Cursor.ofRoot n).walk.map Cursor.node

theorem mem_nodes_iff {n m : Node} : m ∈ n.nodes ↔ n.Contains m := by
  rw [nodes, List.mem_map]
  constructor
  · rintro ⟨place, hplace, rfl⟩
    exact Cursor.contains_of_mem_walk hplace
  · exact fun h => Cursor.exists_mem_walk_of_contains h []

end FlakeLint.Node
