-- SUMMARY: The three ways to recognise a chain of library calls agree.
import FlakeLint.Proofs.Passes.Judgements
import FlakeLint.Proofs.Passes.Queries
import FlakeLint.Proofs.Tree.Around
import FlakeLint.Proofs.Tree.Outline

/-!
# Chains of library calls

Three questions are asked about `cy.get('a').click()`: which object the chain begins
with, whether it is a chain on the library object, and whether library calls are in it.
The first walks from call to call and stops at parentheses, the second looks through
them, and the third visits every call below. A chain that begins with the object is
one for all three of them.
-/

namespace FlakeLint

variable {call n m : Node} {object : String}

-- ---------------------------------------------------------------------------
-- What calls are made on
-- ---------------------------------------------------------------------------

namespace Node

theorem kind_of_identifier? {name : String} (h : n.identifier? = some name) :
    n.kind = .identifier := by
  unfold identifier? at h
  split at h
  · assumption
  · cases h

theorem unwrap?_eq_self (h : n.kind ≠ .parenthesized) : n.unwrap? = some n := by
  rw [unwrap?_eq, if_neg h]

/-- The node is what a call is made on, or what one of the calls further down the chain is made on. -/
inductive OnSpine : Node → Node → Prop where
  | receiver {call receiver : Node} : call.receiver? = some receiver → OnSpine call receiver
  | next {call receiver n : Node} :
      call.receiver? = some receiver → receiver.kind = .call → OnSpine receiver n → OnSpine call n

theorem OnSpine.contains (h : OnSpine n m) : n.Contains m := by
  induction h with
  | receiver hreceiver => exact contains_of_receiver? hreceiver
  | next hreceiver _ _ ih => exact (contains_of_receiver? hreceiver).trans ih

/-- The node is reached from the expression through parentheses and from calls to what they are made
on. -/
inductive IsLinkOf (link : Node) : Node → Prop where
  | self : IsLinkOf link link
  | parenthesized {n inner : Node} :
      n.kind = .parenthesized → n.parts.head? = some inner → IsLinkOf link inner → IsLinkOf link n
  | next {call receiver : Node} :
      call.kind = .call → call.receiver? = some receiver → IsLinkOf link receiver →
      IsLinkOf link call

-- ---------------------------------------------------------------------------
-- Where a chain begins
-- ---------------------------------------------------------------------------

theorem chainObject?_eq (n : Node) :
    n.chainObject? = n.receiver?.bind fun receiver =>
      if receiver.kind = .call then receiver.chainObject? else receiver.identifier? := by
  unfold chainObject?
  rw [chainStart_eq]
  cases n.receiver? with
  | none => rfl
  | some receiver =>
    simp only [Option.bind_some]
    split <;> rfl

/-- The first call of a chain that begins with an object is made on that object. -/
theorem isCallOn_chainStart (hcall : call.kind = .call) (h : call.chainObject? = some object) :
    call.chainStart.1.isCallOn object = true := by
  unfold chainObject? at h
  fun_induction chainStart call with
  | case1 call hreceiver => cases h
  | case2 call receiver hreceiver hinner ih => exact ih hinner h
  | case3 call receiver hreceiver hinner =>
    have hbase : receiver.identifier? = some object := h
    unfold isCallOn
    simp [hcall, hreceiver, hbase]

end Node

namespace Returns

open Node (OnSpine IsLinkOf)

-- ---------------------------------------------------------------------------
-- Chains on an object
-- ---------------------------------------------------------------------------

theorem target?_eq_some {receiver : Node} (h : call.receiver? = some receiver)
    (hkind : receiver.kind ≠ .parenthesized) : target? call = some receiver := by
  unfold target?
  rw [h, Option.bind_some, Node.unwrap?_eq_self hkind]

theorem isLibraryChain_eq_isChainOn (hcall : call.kind = .call) :
    isLibraryChain object call = isChainOn object call := by
  have hself : call.unwrap? = some call := Node.unwrap?_eq_self (by simp [hcall])
  unfold isLibraryChain
  rw [hself, Option.any_some]

theorem isChainOn_iff {receiver : Node} (hcall : call.kind = .call)
    (hreceiver : call.receiver? = some receiver) (hkind : receiver.kind ≠ .parenthesized) :
    isChainOn object call = true ↔
      receiver.identifier? = some object ∨ isChainOn object receiver = true := by
  rw [isChainOn_eq, target?_eq_some hreceiver hkind]
  simp [hcall]

/-- What the walk from call to call finds at the beginning of a chain is found through parentheses too. -/
theorem isChainOn_of_chainObject? (hcall : call.kind = .call)
    (h : call.chainObject? = some object) : isChainOn object call = true := by
  induction call using Node.chainStart.induct with
  | case1 call hreceiver =>
    rw [Node.chainObject?_eq, hreceiver] at h
    cases h
  | case2 call receiver hreceiver hinner ih =>
    rw [Node.chainObject?_eq, hreceiver, Option.bind_some, if_pos hinner] at h
    have hkind : receiver.kind ≠ .parenthesized := by simp [hinner]
    exact (isChainOn_iff hcall hreceiver hkind).2 (.inr (ih hinner h))
  | case3 call receiver hreceiver hinner =>
    rw [Node.chainObject?_eq, hreceiver, Option.bind_some, if_neg hinner] at h
    have hkind : receiver.kind ≠ .parenthesized := by simp [Node.kind_of_identifier? h]
    exact (isChainOn_iff hcall hreceiver hkind).2 (.inl h)

theorem kind_of_isChainOn (h : isChainOn object call = true) : call.kind = .call := by
  rw [isChainOn_eq, Bool.and_eq_true] at h
  exact of_decide_eq_true h.1

theorem isLibraryChain_of_chainObject? (hcall : call.kind = .call)
    (h : call.chainObject? = some object) : isLibraryChain object call = true := by
  rw [isLibraryChain_eq_isChainOn hcall]
  exact isChainOn_of_chainObject? hcall h

/-- Only parentheses can keep the walk from call to call from reaching the object. -/
theorem chainObject?_of_isChainOn (h : isChainOn object call = true)
    (hspine : ∀ n, OnSpine call n → n.kind ≠ .parenthesized) :
    call.chainObject? = some object := by
  have hcall := kind_of_isChainOn h
  induction call using Node.chainStart.induct with
  | case1 call hreceiver =>
    rw [isChainOn_eq, target?, hreceiver] at h
    simp at h
  | case2 call receiver hreceiver hinner ih =>
    rw [Node.chainObject?_eq, hreceiver, Option.bind_some, if_pos hinner]
    rcases (isChainOn_iff hcall hreceiver (hspine _ (.receiver hreceiver))).1 h with hbase | hchain
    · rw [Node.kind_of_identifier? hbase] at hinner
      cases hinner
    · exact ih hchain (fun n hn => hspine n (.next hreceiver hinner hn)) hinner
  | case3 call receiver hreceiver hinner =>
    rw [Node.chainObject?_eq, hreceiver, Option.bind_some, if_neg hinner]
    rcases (isChainOn_iff hcall hreceiver (hspine _ (.receiver hreceiver))).1 h with hbase | hchain
    · exact hbase
    · exact absurd (kind_of_isChainOn hchain) hinner

-- ---------------------------------------------------------------------------
-- Library calls in a chain
-- ---------------------------------------------------------------------------

theorem callsLibrary_of_isCallOn (h : call.isCallOn object = true) :
    callsLibrary object call = true := by
  unfold Node.isCallOn at h
  rw [Bool.and_eq_true, beq_iff_eq, Option.bind_eq_some_iff] at h
  obtain ⟨-, receiver, hreceiver, hname⟩ := h
  obtain ⟨callee, hcallee, hobject⟩ := Option.bind_eq_some_iff.1 hreceiver
  obtain ⟨hfound, hmember⟩ := Option.filter_eq_some_iff.1 hcallee
  unfold callsLibrary
  rw [hfound]
  simp [of_decide_eq_true hmember, hobject, hname]

theorem containsLibraryCalls_of_contains {first : Node} (hfirst : n.Contains first)
    (hcall : first.isCallOn object = true) (above : List Node) :
    containsLibraryCalls ⟨n, above⟩ object = true := by
  obtain ⟨place, hplace, rfl⟩ := Cursor.exists_mem_walk_of_contains hfirst above
  have hkind : place.node.kind = .call := by
    unfold Node.isCallOn at hcall
    rw [Bool.and_eq_true] at hcall
    exact of_decide_eq_true hcall.1
  refine List.any_eq_true.2 ⟨place, ?_, callsLibrary_of_isCallOn hcall⟩
  exact List.mem_filter.2 ⟨hplace, decide_eq_true hkind⟩

-- ---------------------------------------------------------------------------
-- Longer chains
-- ---------------------------------------------------------------------------

/-- A chain that goes on from a library chain is one too. -/
theorem isLibraryChain_of_isLinkOf {link : Node} (hlink : isLibraryChain object link = true)
    (h : IsLinkOf link n) : isLibraryChain object n = true := by
  induction h with
  | self => exact hlink
  | @parenthesized n inner hparen hinner _ ih =>
    unfold isLibraryChain
    rwa [Node.unwrap?_eq, if_pos hparen, hinner, Option.bind_some]
  | @next call receiver hcall hreceiver _ ih =>
    obtain ⟨target, htarget, hchain⟩ := (Option.any_eq_true _ _).1 ih
    rw [isLibraryChain_eq_isChainOn hcall, isChainOn_eq]
    simp [hcall, target?, hreceiver, htarget, hchain]

theorem returnsChain_of_isLinkOf {link : Node} {body place : Cursor} {expression : Node}
    (hlink : isLibraryChain object link = true) (hplace : place ∈ ownReturns body)
    (hexpression : place.node.parts.head? = some expression) (h : IsLinkOf link expression) :
    returnsChain body object = true := by
  obtain ⟨chain, hunwrap, hchain⟩ := (Option.any_eq_true _ _).1 (isLibraryChain_of_isLinkOf hlink h)
  have hreturned : place.node.returned? = some chain := by
    rw [Node.returned?, hexpression, Option.bind_some, hunwrap]
  refine List.any_eq_true.2 ⟨place, hplace, (Option.any_eq_true _ _).2 ⟨chain, hreturned, ?_⟩⟩
  rwa [isLibraryChain_eq_isChainOn (kind_of_isChainOn hchain)]

end Returns

-- ---------------------------------------------------------------------------
-- Actions in chains
-- ---------------------------------------------------------------------------

theorem ActionSite.exists_call_of_mem {parsed : Parsed} {sites : List ActionSite} {site : ActionSite}
    (hfind : ActionSite.find parsed object = .ok sites) (hsite : site ∈ sites) :
    ∃ call ∈ parsed.cursor.calls, call.node.chainObject? = some object ∧
      call.node.methodName? = some site.command ∧ call.node.startLine = .ok site.line ∧
      parsed.location call.node.chainStart.1 call.node = .ok site.location := by
  rw [find_guarded] at hfind
  split at hfind
  · cases hfind
  next hplaced =>
  obtain rfl := Except.ok.inj hfind
  obtain ⟨call, hcall, hfound⟩ := List.mem_filterMap.1 hsite
  obtain ⟨command, hcommand, rfl⟩ := Option.map_eq_some_iff.1 hfound
  obtain ⟨hmethod, hobject⟩ := Option.filter_eq_some_iff.1 hcommand
  have hend (n : Node) (hn : n ∈ [call.node.chainStart.1, call.node]) : n.isUnplaced = false := by
    refine Bool.eq_false_iff.2 fun hunplaced => hplaced (List.any_eq_true.2 ⟨n, ?_, hunplaced⟩)
    refine List.mem_flatMap.2 ⟨call, List.mem_filter.2 ⟨hcall, ?_⟩, hn⟩
    rw [hcommand, Option.isSome_some]
  have hlast := hend call.node (by simp)
  have hfirst := hend call.node.chainStart.1 (by simp)
  refine ⟨call, hcall, by simpa using hobject, (Option.filter_eq_some_iff.1 hmethod).1, ?_, ?_⟩
  · rw [Node.startLine_eq, hlast]
    rfl
  · rw [Parsed.location_eq, hfirst, hlast]
    rfl

-- ---------------------------------------------------------------------------
-- The three questions agree
-- ---------------------------------------------------------------------------

/-- A call that begins with the object when one walks from call to call is a library chain, contains
library calls, and contains the call on the object that the walk ends at. The other way round, the walk
ends at the object in every library chain without parentheses on its way. So a found action stands in
a chain that is returned wherever it is looked for: a return of that chain, or of one that goes on from
it, counts as returning a library chain. -/
theorem library_chain_recognisers_agree (object : String) :
    (∀ (call : Node) (above : List Node), call.kind = .call →
      (call.chainObject? = some object →
        Returns.isLibraryChain object call = true ∧
        Returns.containsLibraryCalls ⟨call, above⟩ object = true ∧
        call.Contains call.chainStart.1 ∧ call.chainStart.1.isCallOn object = true) ∧
      (Returns.isLibraryChain object call = true →
        (∀ n, Node.OnSpine call n → n.kind ≠ .parenthesized) →
        call.chainObject? = some object)) ∧
    ∀ (parsed : Parsed) (sites : List ActionSite), ActionSite.find parsed object = .ok sites →
      ∀ site ∈ sites, ∃ call ∈ parsed.cursor.calls,
        call.node.methodName? = some site.command ∧ call.node.startLine = .ok site.line ∧
        parsed.location call.node.chainStart.1 call.node = .ok site.location ∧
        Returns.isLibraryChain object call.node = true ∧
        ∀ body : Cursor, ∀ place ∈ Returns.ownReturns body, ∀ expression,
          place.node.parts.head? = some expression → Node.IsLinkOf call.node expression →
          Returns.returnsChain body object = true := by
  constructor
  · intro call above hcall
    refine ⟨fun hobject => ?_, fun hchain hspine => ?_⟩
    · have hfirst := Node.isCallOn_chainStart hcall hobject
      have hbelow := Node.contains_chainStart call
      exact ⟨Returns.isLibraryChain_of_chainObject? hcall hobject,
        Returns.containsLibraryCalls_of_contains hbelow hfirst above, hbelow, hfirst⟩
    · rw [Returns.isLibraryChain_eq_isChainOn hcall] at hchain
      exact Returns.chainObject?_of_isChainOn hchain hspine
  · intro parsed sites hfind site hsite
    obtain ⟨call, hcall, hobject, hcommand, hline, hlocation⟩ :=
      ActionSite.exists_call_of_mem hfind hsite
    have hkind : call.node.kind = .call := of_decide_eq_true (List.mem_filter.1 hcall).2
    have hchain := Returns.isLibraryChain_of_chainObject? hkind hobject
    refine ⟨call, hcall, hcommand, hline, hlocation, hchain, ?_⟩
    intro body place hplace expression hexpression hlink
    exact Returns.returnsChain_of_isLinkOf hchain hplace hexpression hlink

namespace Sample

def returnedText : String := "() => \x7b return (cy.get('a').click()).then(b); \x7d"

def clickOutline : Outline :=
  methodCall none 16 28 33 35
    (methodCall (some .object) 16 19 22 27 (piece .identifier (some .object) 16 18 [])
      [piece .string none 23 26 []]) []

/-- An action in parentheses, and a further call on them. -/
def chainOutline : Outline :=
  methodCall none 15 37 41 44 (piece .parenthesized (some .object) 15 36 [clickOutline])
    [piece .identifier none 42 43 []]

def blockOutline : Outline :=
  piece .block (some .body) 6 47 [piece .returnStatement none 8 45 [chainOutline]]

def returnedChain : Parsed :=
  .ofOutline returnedText defaultGrammar <|
    piece (.other "program") none 0 47 [piece .arrowFunction none 0 47 [blockOutline]]

end Sample

/-- The return that goes on from the action in parentheses returns a library chain, though the walk from
call to call stops at them. -/
theorem library_chain_recognisers_agree_parenthesized :
    let click := Node.ofOutline Sample.returnedText Sample.clickOutline
    let chain := Node.ofOutline Sample.returnedText Sample.chainOutline
    let body := Cursor.ofRoot (Node.ofOutline Sample.returnedText Sample.blockOutline)
    ∃ sites, ActionSite.find Sample.returnedChain "cy" = .ok sites ∧
      sites.map ActionSite.command = ["click"] ∧
      click.kind = .call ∧ (∀ n, Node.OnSpine click n → n.kind ≠ .parenthesized) ∧
      click.chainObject? = some "cy" ∧ Returns.isLibraryChain "cy" click = true ∧
      Node.IsLinkOf click chain ∧ chain.chainObject? = none ∧
      Returns.returnsChain body "cy" = true := by
  intro click chain body
  obtain ⟨hagree, hsites⟩ := library_chain_recognisers_agree "cy"
  have hfind := ActionSite.find_eq_ok
    (show Sample.returnedChain.root.isPositioned by decide +kernel) "cy"
  have hcommands : (ActionSite.sites Sample.returnedChain "cy").map ActionSite.command =
      ["click"] := by decide +kernel
  obtain ⟨site, hsite, hcommand⟩ := List.mem_map.1 (hcommands ▸ List.mem_singleton_self "click")
  obtain ⟨call, hcall, hmethod, -, -, hlibrary, hreturns⟩ := hsites _ _ hfind site hsite
  have hclick : call.node = click := by
    have honly : ∀ call ∈ Sample.returnedChain.cursor.calls,
        call.node.methodName? = some "click" → call.node = click := by decide +kernel
    exact honly call hcall (hcommand ▸ hmethod)
  rw [hclick] at hlibrary hreturns
  have hspine : ∀ n, Node.OnSpine click n → n.kind ≠ .parenthesized := by
    have hnone : ∀ place ∈ (Cursor.ofRoot click).walk, place.node.kind ≠ .parenthesized := by
      decide +kernel
    intro n hn
    obtain ⟨place, hplace, rfl⟩ := Cursor.exists_mem_walk_of_contains hn.contains []
    exact hnone place hplace
  have hlink : Node.IsLinkOf click chain :=
    .next (by decide) rfl (.parenthesized (by decide) rfl .self)
  have hreturned : ∃ place ∈ Returns.ownReturns body, place.node.parts.head? = some chain := by
    decide +kernel
  obtain ⟨place, hplace, hhead⟩ := hreturned
  have hkind : click.kind = .call := by decide
  have hobject := (hagree click [] hkind).2 hlibrary hspine
  exact ⟨_, hfind, hcommands, hkind, hspine, hobject, ((hagree click [] hkind).1 hobject).1, hlink,
    by decide +kernel, hreturns body place hplace chain hhead hlink⟩

end FlakeLint
