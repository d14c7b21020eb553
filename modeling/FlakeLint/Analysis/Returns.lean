-- SUMMARY: Returned chains: library calls in a function, and whether it returns them.
import FlakeLint.Analysis.Assertion
import FlakeLint.Analysis.Names

/-!
# Returned chains

A callback or helper that runs library commands should return them. Returns of
functions nested in it are not its own.
-/

namespace FlakeLint.Returns

/-- Does a call use the library, or a helper that likely wraps it? -/
def callsLibrary (object : String) (call : Node) : Bool :=
  match call.callee? with
  | none => false
  | some callee =>
    if callee.kind = .member then
      (callee.object?.bind Node.identifier?).any fun owner =>
        owner == object || Names.helperNamespaces.contains (Text.lower owner)
    else callee.identifier?.any fun name => name != "" && Names.isHelperName name

def containsLibraryCalls (place : Cursor) (object : String) : Bool :=
  place.calls.any fun call => callsLibrary object call.node

/-- The return statements of a body that belong to its own function. -/
def ownReturns (body : Cursor) : List Cursor :=
  body.walkOwnScope.filter fun place => place.kind = .returnStatement

def hasReturn (body : Cursor) : Bool :=
  !(ownReturns body).isEmpty

/-- The expression that a call is made on, without its parentheses. -/
def target? (call : Node) : Option Node :=
  call.receiver?.bind Node.unwrap?

theorem size_le_of_unwrap {n inner : Node} (h : n.unwrap? = some inner) : inner.size ≤ n.size := by
  fun_induction Node.unwrap? n with
  | case1 n hk hp => simp at h
  | case2 n hk first rest hp ih =>
    have mem : first ∈ n.parts := by simp [hp]
    have smaller := Node.size_lt_of_mem_children (List.mem_filter.1 mem).1
    have := ih h
    omega
  | case3 n hk =>
    cases h
    exact Nat.le_refl _

theorem size_lt_of_target {call target : Node} (h : target? call = some target) :
    target.size < call.size := by
  obtain ⟨receiver, hreceiver, hunwrap⟩ := Option.bind_eq_some_iff.1 h
  have := size_le_of_unwrap hunwrap
  have := Node.size_lt_of_receiver hreceiver
  omega

/-- Is a call a chain of calls that begins with `object.method(…)`? Parentheses on the way do not
matter. -/
def isChainOn (object : String) (call : Node) : Bool :=
  call.kind = .call &&
    match _h : target? call with
    | none => false
    | some target => target.identifier? == some object || isChainOn object target
termination_by call.size
decreasing_by exact size_lt_of_target _h

/-- Is an expression, without its parentheses, a chain that begins with the library object? -/
def isLibraryChain (object : String) (expression : Node) : Bool :=
  expression.unwrap?.any (isChainOn object)

/-- Does a body return a chain of its own? -/
def returnsChain (body : Cursor) (object : String) : Bool :=
  (ownReturns body).any fun place => place.node.returned?.any (isLibraryChain object)

end FlakeLint.Returns
