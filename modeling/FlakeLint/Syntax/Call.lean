-- SUMMARY: Calls and member chains: callees, arguments, and where a chain begins.
import FlakeLint.Number.Numeral
import FlakeLint.Syntax.Node

/-!
# Calls

`object.method(arguments)` and its parts. Every question has an answer on every
tree: a part that is missing or of another kind is simply not there.
-/

namespace FlakeLint.Node

/-! ## Literals and names -/

/-- What stands between the quotes of a string literal; templates are no string literals. -/
def stringValue? (n : Node) : Option String :=
  if n.kind = .string then some (String.ofList (n.text.toList.drop 1).dropLast) else none

def numberValue? (n : Node) : Option Number :=
  if n.kind = .number then Numeral.value? n.text else none

def identifier? (n : Node) : Option String :=
  if n.kind = .identifier then some n.text else none

/-- The node inside any number of parentheses; none if a pair of them is empty. -/
def unwrap? (n : Node) : Option Node :=
  if n.kind = .parenthesized then
    match _h : n.parts with
    | [] => none
    | inner :: _ => inner.unwrap?
  else some n
termination_by n.size
decreasing_by
  have mem : inner ∈ n.parts := by simp [_h]
  exact size_lt_of_mem_children (List.mem_filter.1 mem).1

/-! ## Calls -/

def callee? (n : Node) : Option Node :=
  n.child? .function

/-- The arguments of a call, comments left out. -/
def arguments (n : Node) : List Node :=
  match n.child? .arguments with
  | some args => if args.kind = .arguments then args.parts else []
  | none => []

def object? (n : Node) : Option Node :=
  n.child? .object

/-- The property name of a member expression. -/
def propertyName? (n : Node) : Option String :=
  match n.child? .property with
  | some property => if property.kind.isPropertyName then some property.text else none
  | none => none

/-- The callee of a call, if it is a member expression. -/
def memberCallee? (n : Node) : Option Node :=
  n.callee?.filter fun callee => callee.kind = .member

/-- The method name of a call `object.method(…)`. -/
def methodName? (n : Node) : Option String :=
  n.memberCallee?.bind propertyName?

/-- The object of a call `object.method(…)`. -/
def receiver? (n : Node) : Option Node :=
  n.memberCallee?.bind object?

theorem size_lt_of_receiver {n inner : Node} (h : n.receiver? = some inner) :
    inner.size < n.size := by
  obtain ⟨callee, hcallee, hinner⟩ := Option.bind_eq_some_iff.1 h
  have hfound := (Option.filter_eq_some_iff.1 hcallee).1
  have outer := size_lt_of_mem_children (mem_children_of_child? hfound)
  have nested := size_lt_of_mem_children (mem_children_of_child? hinner)
  omega

/-- The name of a call `name(…)`. -/
def calleeName? (n : Node) : Option String :=
  n.callee?.bind identifier?

/-- Is this a call of some method on the object with the given name? -/
def isCallOn (n : Node) (object : String) : Bool :=
  n.kind = .call && n.receiver?.bind identifier? == some object

/-- Is this the call `object.method(…)`? -/
def isCallOf (n : Node) (object method : String) : Bool :=
  n.isCallOn object && n.methodName? == some method

/-! ## Chains -/

/-- Walks down `a.b().c().d()` to its innermost call, and to whatever that call is made on. -/
def chainStart (n : Node) : Node × Option Node :=
  match _h : n.receiver? with
  | none => (n, none)
  | some inner => if inner.kind = .call then inner.chainStart else (n, some inner)
termination_by n.size
decreasing_by exact size_lt_of_receiver _h

/-- The name of the object that a chain of calls begins with. -/
def chainObject? (n : Node) : Option String :=
  n.chainStart.2.bind identifier?

/-- The selector of a chain that begins with `.get('<selector>')`. -/
def getSelector? (n : Node) : Option String :=
  if n.methodName? = some "get" then n.arguments.head?.bind stringValue? else none

end FlakeLint.Node
