-- SUMMARY: Functions: bodies, names, and what surrounds them.
import FlakeLint.Syntax.Call

/-!
# Functions

Where a function gets its name from, and where returned values are found. A
declaration carries its own name; a function value takes the name of the
variable that it initialises, through any parentheses, and else its own.
-/

namespace FlakeLint

namespace Node

def body? (n : Node) : Option Node :=
  n.child? .body

/-- The body of a function, if it is a block of statements. -/
def blockBody? (n : Node) : Option Node :=
  n.body?.filter fun body => body.kind = .block

/-- The expression that a return statement returns, without its parentheses. -/
def returned? (n : Node) : Option Node :=
  n.parts.head?.bind unwrap?

/-- The name that a function carries itself; empty if it has none. -/
def ownName (n : Node) : String :=
  match n.child? .name with
  | some name => name.text
  | none => ""

end Node

namespace Cursor

/-- The body of a function, in its place. -/
def body? (c : Cursor) : Option Cursor :=
  c.node.body?.map fun body => ⟨body, c.node :: c.above⟩

/-- The nearest place around this one that is no pair of parentheses. -/
def binder? (c : Cursor) : Option Cursor :=
  c.ancestors.find? fun place => place.kind ≠ .parenthesized

/-- The name of the variable that a function value initialises. -/
def variableName? (c : Cursor) : Option String :=
  match c.binder? with
  | some binder =>
    if binder.kind = .declarator then (binder.node.child? .name).bind Node.identifier? else none
  | none => none

/-- The name of a function; empty if nothing names it. -/
def functionName (c : Cursor) : String :=
  if c.kind.isFunctionDeclaration then c.node.ownName
  else match c.variableName? with
    | some name => if name = "" then c.node.ownName else name
    | none => c.node.ownName

/-- The call that a function is passed to, through any parentheses. -/
def passedTo? (c : Cursor) : Option Cursor :=
  match c.binder? with
  | some args =>
    if args.kind = .arguments then args.parent?.filter fun call => call.kind = .call else none
  | none => none

end Cursor

end FlakeLint
