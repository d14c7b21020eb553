-- SUMMARY: Syntax trees, places in them, and walks over them.
import FlakeLint.Fault
import FlakeLint.Syntax.Kind

/-!
# Syntax trees

A node knows its kind, its text and where it stands; a cursor is a node together
with the nodes around it, nearest first. Walks list cursors in source order,
a node before its children.
-/

namespace FlakeLint

/-! ## Nodes -/

/-- A place in a source: rows and columns count from 0, columns count bytes. -/
structure Point where
  row : Nat
  column : Nat
deriving DecidableEq, Repr

structure Span where
  start : Point
  stop : Point
deriving DecidableEq, Repr

/-- What a node is, apart from its children. -/
structure Head where
  kind : Kind
  /-- Does the grammar give the node a name? Punctuation and keywords have none. -/
  named : Bool
  /-- Was the node made up by the parser to complete the source? -/
  missing : Bool
  /-- Is there an error here or below? -/
  hasError : Bool
  role : Option Role
  text : String
  span : Option Span
deriving DecidableEq, Repr

inductive Node where
  | mk (head : Head) (children : List Node)

namespace Node

def head : Node → Head
  | .mk head _ => head

def children : Node → List Node
  | .mk _ children => children

def kind (n : Node) : Kind := n.head.kind

def text (n : Node) : String := n.head.text

/-- The first child in the given role. -/
def child? (n : Node) (role : Role) : Option Node :=
  n.children.find? fun child => child.head.role = some role

/-- The named children that are no comments; comments may stand anywhere. -/
def parts (n : Node) : List Node :=
  n.children.filter fun child => child.head.named && child.kind ≠ .comment

def span (n : Node) : Except Fault Span :=
  match n.head.span with
  | some span => .ok span
  | none => .error .missingPosition

/-- The line on which the node starts; lines count from 1. -/
def startLine (n : Node) : Except Fault Nat := do
  return (← n.span).start.row + 1

def endLine (n : Node) : Except Fault Nat := do
  return (← n.span).stop.row + 1

mutual
/-- Number of nodes of the tree. -/
def size : Node → Nat
  | .mk _ children => 1 + sizeOfAll children

def sizeOfAll : List Node → Nat
  | [] => 0
  | n :: ns => n.size + sizeOfAll ns
end

theorem sizeOfAll_append (ns ms : List Node) :
    sizeOfAll (ns ++ ms) = sizeOfAll ns + sizeOfAll ms := by
  induction ns with
  | nil => simp [sizeOfAll]
  | cons n ns ih => simp [sizeOfAll, ih, Nat.add_assoc]

theorem sizeOfAll_filter_le (p : Node → Bool) (ns : List Node) :
    sizeOfAll (ns.filter p) ≤ sizeOfAll ns := by
  induction ns with
  | nil => simp
  | cons n ns ih =>
    by_cases h : p n
    · simp only [List.filter_cons, h, if_true, sizeOfAll]
      omega
    · simp only [List.filter_cons, h, Bool.false_eq_true, if_false, sizeOfAll]
      omega

theorem size_le_sizeOfAll_of_mem {n : Node} {ns : List Node} (h : n ∈ ns) :
    n.size ≤ sizeOfAll ns := by
  induction ns with
  | nil => simp at h
  | cons m ns ih =>
    simp only [sizeOfAll]
    rcases List.mem_cons.1 h with rfl | h
    · omega
    · have := ih h
      omega

theorem size_lt_of_mem_children {n child : Node} (h : child ∈ n.children) :
    child.size < n.size := by
  obtain ⟨head, children⟩ := n
  have := size_le_sizeOfAll_of_mem (show child ∈ children from h)
  simp only [size]
  omega

theorem mem_children_of_child? {n child : Node} {role : Role} (h : n.child? role = some child) :
    child ∈ n.children :=
  List.mem_of_find?_eq_some h

end Node

/-! ## Cursors -/

/-- A node and the nodes around it, nearest first. -/
structure Cursor where
  node : Node
  above : List Node

namespace Cursor

def ofRoot (root : Node) : Cursor :=
  ⟨root, []⟩

def kind (c : Cursor) : Kind := c.node.kind

def children (c : Cursor) : List Cursor :=
  c.node.children.map fun child => ⟨child, c.node :: c.above⟩

def parent? (c : Cursor) : Option Cursor :=
  match c.above with
  | [] => none
  | n :: ns => some ⟨n, ns⟩

/-- The places around a place, nearest first. -/
def outward : List Node → List Cursor
  | [] => []
  | n :: ns => ⟨n, ns⟩ :: outward ns

def ancestors (c : Cursor) : List Cursor :=
  outward c.above

/-- Total size of the trees under some cursors. -/
def load (cs : List Cursor) : Nat :=
  Node.sizeOfAll (cs.map Cursor.node)

theorem load_cons (c : Cursor) (cs : List Cursor) : load (c :: cs) = c.node.size + load cs := rfl

theorem load_append (cs ds : List Cursor) : load (cs ++ ds) = load cs + load ds := by
  simp [load, Node.sizeOfAll_append]

theorem load_children_filter_lt (p : Cursor → Bool) (c : Cursor) :
    load (c.children.filter p) < c.node.size := by
  obtain ⟨⟨head, children⟩, above⟩ := c
  have h : load ((Cursor.children ⟨.mk head children, above⟩).filter p) ≤
      Node.sizeOfAll children := by
    simp only [load, Cursor.children, Node.children, List.filter_map, List.map_map]
    have unmapped (ns : List Node) :
        List.map (Cursor.node ∘ fun child => ⟨child, Node.mk head children :: above⟩) ns = ns := by
      simp [Function.comp_def]
    rw [unmapped]
    exact Node.sizeOfAll_filter_le _ children
  simp only [Node.size]
  omega

/-! ## Walks -/

/-- Visits the pending places one by one. The children of a place that satisfy `enter` are visited
before the places that were pending already. -/
def visit (enter : Cursor → Bool) : List Cursor → List Cursor
  | [] => []
  | c :: pending => c :: visit enter (c.children.filter enter ++ pending)
termination_by pending => load pending
decreasing_by
  rw [load_append, load_cons]
  have := load_children_filter_lt enter c
  omega

/-- The place itself and everything below it, in source order. -/
def walk (c : Cursor) : List Cursor :=
  visit (fun _ => true) [c]

/-- Like `walk`, but functions below the place are not entered or listed. -/
def walkOwnScope (c : Cursor) : List Cursor :=
  visit (fun child => !child.kind.isFunction) [c]

def calls (c : Cursor) : List Cursor :=
  c.walk.filter fun place => place.kind = .call

end Cursor

end FlakeLint
