-- SUMMARY: The returns that count for a body: those of its function, and those of methods in it.
import FlakeLint.Problem.BrokenChain
import FlakeLint.Proofs.Tree.Around
import FlakeLint.Proofs.Tree.Outline
import FlakeLint.Proofs.Tree.Root

/-!
# Returns of a body

A return statement belongs to the nearest function or method around it. The search
for the returns of a body stops at functions and goes on into methods, so it also
counts returns of a method, as long as no function stands between the method and the
body.
-/

namespace FlakeLint

-- ---------------------------------------------------------------------------
-- Owners of returns
-- ---------------------------------------------------------------------------

namespace Kind

/-- A method of an object or a class, be it a getter or a setter. -/
def method : Kind := .other "method_definition"

/-- Kinds of nodes that a return statement returns from. -/
def ownsReturns (k : Kind) : Bool :=
  k.isFunction || k = .method

theorem ownsReturns_of_isFunction {k : Kind} (h : k.isFunction = true) : k.ownsReturns = true := by
  simp [ownsReturns, h]

theorem isFunction_of_isCallback {k : Kind} (h : k.isCallback = true) : k.isFunction = true := by
  simp [isFunction, h]

end Kind

namespace Returns

/-- The function or method that a return statement returns from. -/
def owner? (place : Cursor) : Option Cursor :=
  place.nearest? Kind.ownsReturns

/-- The function that a body is searched for: the one whose body it is, or the body itself if that is a
function once more. -/
def scopeOf (function body : Cursor) : Cursor :=
  if body.kind.isFunction then body else function

/-- The place belongs to the function, or to a method with no other function between the two. -/
def CountsFor (function place : Cursor) : Prop :=
  owner? place = some function ∨
  ∃ method, owner? place = some method ∧ method.kind = .method ∧
    method.nearest? Kind.isFunction = some function

theorem kind_eq_method {place owner : Cursor} (howner : owner? place = some owner)
    (h : owner.kind.isFunction = false) : owner.kind = .method := by
  have hkind : owner.kind.ownsReturns = true := by
    unfold owner? Cursor.nearest? at howner
    simpa using List.find?_some howner
  simpa [Kind.ownsReturns, h] using hkind

theorem countsFor_iff {function place : Cursor} (hfunction : function.kind.isFunction = true) :
    CountsFor function place ↔ place.nearest? Kind.isFunction = some function := by
  rw [Cursor.nearest?_iff_of_le fun k => Kind.ownsReturns_of_isFunction]
  constructor
  · rintro (howner | ⟨method, howner, hkind, hnearest⟩)
    · exact .inl ⟨howner, hfunction⟩
    · exact .inr ⟨method, howner, by rw [hkind]; rfl, hnearest⟩
  · rintro (⟨howner, -⟩ | ⟨method, howner, hkind, hnearest⟩)
    · exact .inl howner
    · exact .inr ⟨method, howner, kind_eq_method howner hkind, hnearest⟩

-- ---------------------------------------------------------------------------
-- Bodies
-- ---------------------------------------------------------------------------

variable {function body place : Cursor}

theorem above_of_body? (hbody : function.body? = some body) : body.above = function.path := by
  obtain ⟨n, -, rfl⟩ := Option.map_eq_some_iff.1 hbody
  rfl

theorem scopeOf_of_block (hblock : body.kind = .block) : scopeOf function body = function := by
  rw [scopeOf, hblock]
  exact if_neg Bool.false_ne_true

theorem isFunction_scopeOf (hfunction : function.kind.isFunction = true) :
    (scopeOf function body).kind.isFunction = true := by
  unfold scopeOf
  split
  · assumption
  · exact hfunction

/-- Below a body, the nearest function is the one of the body exactly if none stands between. -/
theorem nearest?_below_body (hfunction : function.kind.isFunction = true)
    (hbody : function.body? = some body) {between : List Node}
    (hplace : place.above = between ++ body.path) :
    place.nearest? Kind.isFunction = some (scopeOf function body) ↔
      ∀ m ∈ between, m.kind.isFunction = false := by
  obtain ⟨n, above⟩ := place
  obtain rfl : above = between ++ body.path := hplace
  unfold scopeOf
  cases hkind : body.kind.isFunction with
  | true => exact Cursor.nearest?_eq_some_iff hkind n between
  | false =>
    have hplain : body.node.kind.isFunction = false := hkind
    have hout : between ++ body.path = (between ++ [body.node]) ++ function.path := by
      rw [Cursor.path, above_of_body? hbody, List.append_assoc, List.singleton_append]
    rw [hout, if_neg Bool.false_ne_true, Cursor.nearest?_eq_some_iff hfunction,
      List.forall_mem_append, List.forall_mem_singleton]
    exact and_iff_left hplain

theorem mem_ownReturns_iff (hfunction : function.kind.isFunction = true)
    (hbody : function.body? = some body) :
    place ∈ ownReturns body ↔
      place ∈ body.walk ∧ place.kind = .returnStatement ∧
        CountsFor (scopeOf function body) place := by
  rw [countsFor_iff (isFunction_scopeOf hfunction)]
  unfold ownReturns
  rw [List.mem_filter, Cursor.mem_walkOwnScope_iff, decide_eq_true_eq]
  constructor
  · rintro ⟨rfl | ⟨hwalk, -, between, hplace, hnone⟩, hreturn⟩
    · have hplain : place.kind.isFunction = false := by rw [hreturn]; rfl
      refine ⟨Cursor.mem_walk_self place, hreturn, ?_⟩
      obtain ⟨n, above⟩ := place
      obtain rfl : above = [] ++ function.path := above_of_body? hbody
      unfold scopeOf
      rw [hplain, if_neg Bool.false_ne_true, Cursor.nearest?_eq_some_iff hfunction]
      simp
    · exact ⟨hwalk, hreturn, (nearest?_below_body hfunction hbody hplace).2 hnone⟩
  · rintro ⟨hwalk, hreturn, hnearest⟩
    refine ⟨?_, hreturn⟩
    rcases Cursor.exists_above_eq_of_mem_walk hwalk with rfl | ⟨between, hplace⟩
    · exact .inl rfl
    · exact .inr ⟨hwalk, by rw [hreturn]; rfl, between, hplace,
        (nearest?_below_body hfunction hbody hplace).1 hnearest⟩

theorem hasReturn_eq_true_iff (hfunction : function.kind.isFunction = true)
    (hbody : function.body? = some body) :
    hasReturn body = true ↔
      ∃ place ∈ body.walk, place.kind = .returnStatement ∧
        CountsFor (scopeOf function body) place := by
  unfold hasReturn
  rw [Bool.not_eq_true', List.isEmpty_eq_false_iff_exists_mem]
  exact exists_congr fun place => mem_ownReturns_iff hfunction hbody

theorem returnsChain_eq_true_iff (hfunction : function.kind.isFunction = true)
    (hbody : function.body? = some body) (object : String) :
    returnsChain body object = true ↔
      ∃ place ∈ body.walk, place.kind = .returnStatement ∧
        CountsFor (scopeOf function body) place ∧
        ∃ returned, place.node.returned? = some returned ∧
          isLibraryChain object returned = true := by
  unfold returnsChain
  rw [List.any_eq_true]
  refine exists_congr fun place => ?_
  rw [mem_ownReturns_iff hfunction hbody, Option.any_eq_true, and_assoc, and_assoc]

end Returns

-- ---------------------------------------------------------------------------
-- Broken chains
-- ---------------------------------------------------------------------------

namespace BrokenChain

variable {function body : Cursor}

/-- A callback whose block of statements runs library commands breaks the chain unless a return in the
block counts for it. -/
theorem isBrokenCallback_iff_countsFor (hcallback : function.kind.isCallback = true)
    (hbody : function.body? = some body) (hblock : body.kind = .block) :
    isBrokenCallback function.node = true ↔
      Returns.containsLibraryCalls body libraryObject = true ∧
        ¬ ∃ place ∈ body.walk, place.kind = .returnStatement ∧ Returns.CountsFor function place := by
  have hfunction : function.kind.isFunction = true := Kind.isFunction_of_isCallback hcallback
  have hreturn := Returns.hasReturn_eq_true_iff hfunction hbody
  rw [Returns.scopeOf_of_block hblock] at hreturn
  rw [← hreturn, Bool.not_eq_true]
  obtain ⟨block, hnode, rfl⟩ := Option.map_eq_some_iff.1 hbody
  have hkept : function.node.blockBody? = some block :=
    Option.filter_eq_some_iff.2 ⟨hnode, decide_eq_true hblock⟩
  -- The check looks at the block alone, which finds the same calls and returns.
  have hcalls := Returns.containsLibraryCalls_under function.path (.ofRoot block) libraryObject
  have hreturns := Returns.hasReturn_under function.path (.ofRoot block)
  have hkind : function.node.kind.isCallback = true := hcallback
  unfold isBrokenCallback
  rw [hkind, hkept, Option.any_some, Bool.true_and, Bool.and_eq_true, Bool.not_eq_true', ← hcalls,
    ← hreturns]
  rfl

/-- A helper outside of tests whose block of statements runs library commands breaks the chain unless
its name is that of a retry helper or one of the returns that count for it returns a chain. -/
theorem isBrokenHelper_iff_countsFor (hfunction : function.kind.isFunction = true)
    (hbody : function.body? = some body) (hblock : body.kind = .block) :
    isBrokenHelper function = true ↔
      isInTest function = false ∧
      Returns.containsLibraryCalls body libraryObject = true ∧
      Names.isRetryHelperName (reportedName function) = false ∧
        ¬ ∃ place ∈ body.walk, place.kind = .returnStatement ∧ Returns.CountsFor function place ∧
          ∃ returned, place.node.returned? = some returned ∧
            Returns.isLibraryChain libraryObject returned = true := by
  have hchain := Returns.returnsChain_eq_true_iff hfunction hbody libraryObject
  rw [Returns.scopeOf_of_block hblock] at hchain
  rw [← hchain, Bool.not_eq_true]
  unfold isBrokenHelper
  rw [hbody, Option.filter_some_pos (by simpa using hblock), Option.any_some]
  simp only [Bool.and_eq_true, Bool.not_eq_true', and_assoc]

end BrokenChain

/-- A body is found to return exactly if a return in it counts for its function, and to return a chain
exactly if one of these returns a chain of the library. What counts besides the function's own
returns are those of methods inside the body that no other function stands around. So these, too, keep
a callback or a helper from being reported. -/
theorem Returns.hasReturn_iff_countsFor {function body : Cursor}
    (hfunction : function.kind.isFunction = true) (hbody : function.body? = some body)
    (object : String) :
    (hasReturn body = true ↔
      ∃ place ∈ body.walk, place.kind = .returnStatement ∧
        CountsFor (scopeOf function body) place) ∧
    (returnsChain body object = true ↔
      ∃ place ∈ body.walk, place.kind = .returnStatement ∧
        CountsFor (scopeOf function body) place ∧
        ∃ returned, place.node.returned? = some returned ∧
          isLibraryChain object returned = true) ∧
    (body.kind = .block →
      (function.kind.isCallback = true →
        (BrokenChain.isBrokenCallback function.node = true ↔
          containsLibraryCalls body libraryObject = true ∧
            ¬ ∃ place ∈ body.walk, place.kind = .returnStatement ∧ CountsFor function place)) ∧
      (BrokenChain.isBrokenHelper function = true ↔
        BrokenChain.isInTest function = false ∧ containsLibraryCalls body libraryObject = true ∧
          Names.isRetryHelperName (BrokenChain.reportedName function) = false ∧
            ¬ ∃ place ∈ body.walk, place.kind = .returnStatement ∧ CountsFor function place ∧
              ∃ returned, place.node.returned? = some returned ∧
                isLibraryChain libraryObject returned = true)) := by
  refine ⟨hasReturn_eq_true_iff hfunction hbody, returnsChain_eq_true_iff hfunction hbody object, ?_⟩
  intro hblock
  constructor
  · intro hcallback
    exact BrokenChain.isBrokenCallback_iff_countsFor hcallback hbody hblock
  · exact BrokenChain.isBrokenHelper_iff_countsFor hfunction hbody hblock

namespace Sample

/-- A callback that runs a command of the library and returns nothing; a method in it returns. -/
def returningMethod : TestFile :=
  .ofOutline "a.cy.js"
      ("cy.get('z').then(() => \x7b\n  const o = \x7b m() \x7b return 1; \x7d \x7d;\n" ++
        "  cy.get('a');\n\x7d);")
      defaultGrammar <|
    piece (.other "program") none 0 78 [
      methodCall none 0 12 16 77
        (methodCall (some .object) 0 3 6 11 (piece .identifier (some .object) 0 2 [])
          [piece .string none 7 10 []])
        [piece .arrowFunction none 17 76 [
          piece .block (some .body) 23 76 [
            piece .declarator none 33 58 [
              piece .identifier (some .name) 33 34 [],
              piece (.other "object") none 37 58 [
                piece .method none 39 56 [
                  piece .property (some .name) 39 40 [],
                  piece .block (some .body) 43 56 [
                    piece .returnStatement none 45 54 [piece .number none 52 53 []]]]]],
            methodCall none 62 65 68 73 (piece .identifier (some .object) 62 64 [])
              [piece .string none 69 72 []]]]]]

/-- The place of the callback in it. -/
def returningMethodCallback : Cursor :=
  (returningMethod.cursor.walk.filter fun place => place.kind.isFunction).get ⟨0, by decide +kernel⟩

/-- The place of the body of the callback. -/
def returningMethodBody : Cursor :=
  returningMethodCallback.body?.get (by decide +kernel)

end Sample

/-- The only return in the callback is the one of the method in it. It counts for the callback, so that
the chain it breaks is not reported. -/
theorem Returns.hasReturn_of_returning_method :
    Sample.returningMethodCallback.kind.isFunction = true ∧
    Sample.returningMethodCallback.body? = some Sample.returningMethodBody ∧
    (∀ place ∈ Sample.returningMethodBody.walk, place.kind = .returnStatement →
      (owner? place).map Cursor.kind = some .method) ∧
    (∃ place ∈ Sample.returningMethodBody.walk, place.kind = .returnStatement ∧
      CountsFor Sample.returningMethodCallback place) ∧
    containsLibraryCalls Sample.returningMethodBody libraryObject = true ∧
    BrokenChain.isBrokenCallback Sample.returningMethodCallback.node = false := by
  have hkind : Sample.returningMethodCallback.kind.isFunction = true := by decide +kernel
  have hbody : Sample.returningMethodCallback.body? = some Sample.returningMethodBody :=
    (Option.some_get _).symm
  have hfound : hasReturn Sample.returningMethodBody = true := by decide +kernel
  have hcounts := (hasReturn_iff_countsFor hkind hbody libraryObject).1.1 hfound
  rw [scopeOf_of_block (by decide +kernel)] at hcounts
  exact ⟨hkind, hbody, by decide +kernel, hcounts, by decide +kernel, by decide +kernel⟩

end FlakeLint
