-- SUMMARY: Trees in which every node has a position, and the lines and locations of their nodes.
import FlakeLint.Issue
import FlakeLint.Proofs.Tree.Walk
import FlakeLint.Syntax.Parse

/-!
# Positions

Asking a node for its line can only fail if the node has no position. On a tree
in which every node has one, lines and locations are plain functions of the
nodes, and so is the line of a syntax error.
-/

namespace FlakeLint

theorem lineAt?_succ (lines : List String) (row : Nat) :
    lineAt? lines ((row + 1 : Nat) : Int) = lines[row]? := by
  unfold lineAt?
  rw [if_pos (by omega)]
  congr 1
  omega

namespace Node

def isPositioned (n : Node) : Bool :=
  n.everywhere fun head => head.span.isSome

/-- Where a node starts; the start of the source for a node without a position. -/
def start (n : Node) : Point :=
  (n.head.span.map Span.start).getD ⟨0, 0⟩

/-- Where a node ends; the start of the source for a node without a position. -/
def stop (n : Node) : Point :=
  (n.head.span.map Span.stop).getD ⟨0, 0⟩

/-- The line on which a node starts. -/
def line (n : Node) : Nat := n.start.row + 1

/-- The line on which a node ends. -/
def lastLine (n : Node) : Nat := n.stop.row + 1

/-- Does the node itself lack a position? -/
def isUnplaced (n : Node) : Bool := n.head.span.isNone

theorem startLine_eq (n : Node) :
    n.startLine = if n.isUnplaced then .error .missingPosition else .ok n.line := by
  unfold startLine span isUnplaced line start
  cases n.head.span <;> rfl

theorem startLine_eq_ok_iff {n : Node} {line : Nat} :
    n.startLine = .ok line ↔ n.isUnplaced = false ∧ n.line = line := by
  rw [startLine_eq]
  cases n.isUnplaced with
  | true => simp
  | false => simp

theorem endLine_eq (n : Node) :
    n.endLine = if n.isUnplaced then .error .missingPosition else .ok n.lastLine := by
  unfold endLine span isUnplaced lastLine stop
  cases n.head.span <;> rfl

theorem isPositioned_of_contains {n m : Node} (hm : n.Contains m) (h : n.isPositioned) :
    m.isPositioned :=
  everywhere_of_contains hm h

theorem isPositioned_iff {n : Node} :
    n.isPositioned ↔ n.head.span.isSome ∧ ∀ child ∈ n.children, child.isPositioned := by
  obtain ⟨head, children⟩ := n
  unfold isPositioned
  rw [everywhere, Bool.and_eq_true, everywhereIn_eq_true]
  rfl

theorem isUnplaced_eq_false {n : Node} (h : n.isPositioned) : n.isUnplaced = false :=
  Option.isNone_eq_false_iff.2 (head_of_everywhere h)

theorem any_isUnplaced_eq_false {ns : List Node} (h : ∀ n ∈ ns, n.isPositioned) :
    ns.any isUnplaced = false :=
  List.any_eq_false.2 fun n hn => Bool.eq_false_iff.1 (isUnplaced_eq_false (h n hn))

theorem startLine_eq_ok {n : Node} (h : n.isPositioned) : n.startLine = .ok n.line := by
  rw [startLine_eq, isUnplaced_eq_false h]
  rfl

mutual
theorem contains_of_firstError? {n found : Node} (h : n.firstError? = some found) :
    n.Contains found := by
  obtain ⟨head, children⟩ := n
  rw [Node.firstError?] at h
  split at h
  · cases h
    exact .self _
  · split at h
    · obtain ⟨child, hchild, hfound⟩ := exists_mem_contains_of_firstErrorOf? h
      exact .step hchild hfound
    · cases h

theorem exists_mem_contains_of_firstErrorOf? {ns : List Node} {found : Node}
    (h : firstErrorOf? ns = some found) : ∃ n ∈ ns, n.Contains found := by
  match ns with
  | [] => cases h
  | n :: ns =>
    rw [firstErrorOf?] at h
    split at h
    · next first hfirst =>
      cases h
      exact ⟨n, List.mem_cons_self, contains_of_firstError? hfirst⟩
    · obtain ⟨m, hm, hfound⟩ := exists_mem_contains_of_firstErrorOf? h
      exact ⟨m, List.mem_cons_of_mem n hm, hfound⟩
end

end Node

namespace Cursor

theorem isPositioned_of_mem_calls {c d : Cursor} (h : c.node.isPositioned) (hd : d ∈ c.calls) :
    d.node.isPositioned :=
  Node.isPositioned_of_contains (contains_of_mem_calls hd) h

end Cursor

namespace Parsed

/-- The location from the start of one node to the end of another. -/
def spanning (parsed : Parsed) (first last : Node) : Location where
  line := first.line
  column := some (charColumn parsed.lines first.start.row first.start.column)
  endLine := some last.lastLine
  endColumn := some (charColumn parsed.lines last.stop.row last.stop.column)

theorem location_eq (parsed : Parsed) (first last : Node) :
    parsed.location first last =
      if first.isUnplaced || last.isUnplaced then .error .missingPosition
      else .ok (parsed.spanning first last) := by
  unfold location Node.span Node.isUnplaced spanning Node.line Node.lastLine Node.start Node.stop
  cases first.head.span <;> cases last.head.span <;> rfl

theorem location_eq_ok {parsed : Parsed} {first last : Node} (hfirst : first.isPositioned)
    (hlast : last.isPositioned) : parsed.location first last = .ok (parsed.spanning first last) := by
  rw [location_eq, Node.isUnplaced_eq_false hfirst, Node.isUnplaced_eq_false hlast]
  rfl

theorem place?_eq_some {parsed : Parsed} {n : Node} (h : n.isPositioned) :
    parsed.place? n = some (parsed.spanning n n) := by
  unfold place?
  rw [location_eq_ok h h]
  rfl

end Parsed

end FlakeLint
