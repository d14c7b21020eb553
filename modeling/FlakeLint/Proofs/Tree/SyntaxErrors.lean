-- SUMMARY: What parsing yields: one of two trees without a flaw, or the first flaw of the first tree.
import FlakeLint.Proofs.Tree.Around
import FlakeLint.Proofs.Tree.Outline
import FlakeLint.Proofs.Tree.Root

/-!
# Syntax errors

A flaw is a node that the parser could not fit into the grammar, or one that it made
up. Parsers flag the nodes with a flaw at or below them, and the search for the first
flaw leaves out the nodes without that flag. Where the flags are right, it finds what a
walk of the whole tree finds first. Parsing yields a tree without a flaw, and else the
fault of the grammar that was chosen first.
-/

namespace FlakeLint

-- ---------------------------------------------------------------------------
-- The first flaw of a tree
-- ---------------------------------------------------------------------------

namespace Node

/-- Is the node an error, or made up by the parser? -/
def isFlaw (n : Node) : Bool :=
  n.kind = .error || n.head.missing

/-- There is a flaw at the node or below it. -/
def IsFlawed (n : Node) : Prop :=
  ∃ flaw, n.Contains flaw ∧ flaw.isFlaw = true

/-- Every node carries the error flag exactly if there is a flaw at it or below it. -/
def FlagsFlaws (n : Node) : Prop :=
  ∀ m, n.Contains m → (m.head.hasError = true ↔ m.IsFlawed)

/-- The first flaw in source order, looked for in the whole tree. -/
def firstFlaw? (n : Node) : Option Node :=
  n.nodes.find? isFlaw

variable {n m flaw : Node}

theorem nodes_eq (n : Node) : n.nodes = n :: n.children.flatMap nodes := by
  have hunder : Cursor.node ∘ Cursor.under [n] = Cursor.node := rfl
  unfold nodes
  rw [Cursor.walk_ofRoot, List.map_cons, List.map_map, hunder, List.map_flatMap]
  rfl

theorem firstFlaw?_eq (n : Node) :
    n.firstFlaw? = if n.isFlaw then some n else n.children.findSome? firstFlaw? := by
  unfold firstFlaw?
  rw [nodes_eq, List.find?_cons, List.find?_flatMap]
  cases n.isFlaw <;> rfl

theorem isSome_firstFlaw?_iff : n.firstFlaw?.isSome = true ↔ n.IsFlawed := by
  rw [firstFlaw?, List.find?_isSome]
  simp only [mem_nodes_iff, IsFlawed]

theorem firstFlaw?_eq_none (h : ¬ n.IsFlawed) : n.firstFlaw? = none := by
  rwa [← isSome_firstFlaw?_iff, Bool.not_eq_true, Option.isSome_eq_false_iff,
    Option.isNone_iff_eq_none] at h

theorem isFlawed_of_firstFlaw? (h : n.firstFlaw? = some flaw) : n.IsFlawed := by
  rw [← isSome_firstFlaw?_iff, h]
  rfl

theorem IsFlawed.of_contains (hm : n.Contains m) (h : m.IsFlawed) : n.IsFlawed := by
  obtain ⟨flaw, hflaw, hbad⟩ := h
  exact ⟨flaw, hm.trans hflaw, hbad⟩

theorem FlagsFlaws.of_contains (hm : n.Contains m) (h : n.FlagsFlaws) : m.FlagsFlaws :=
  fun below hbelow => h below (hm.trans hbelow)

instance (n : Node) : Decidable n.IsFlawed :=
  decidable_of_iff (n.firstFlaw?.isSome = true) isSome_firstFlaw?_iff

instance (n : Node) : Decidable n.FlagsFlaws :=
  decidable_of_iff (∀ m ∈ n.nodes, (m.head.hasError = true ↔ m.IsFlawed))
    (by simp only [mem_nodes_iff, FlagsFlaws])

theorem firstErrorOf?_eq_findSome? (ns : List Node) :
    firstErrorOf? ns = ns.findSome? firstError? := by
  induction ns with
  | nil => rfl
  | cons n ns ih =>
    rw [firstErrorOf?, ih, List.findSome?_cons]
    cases n.firstError? <;> rfl

theorem firstError?_eq (n : Node) :
    n.firstError? =
      if n.isFlaw then some n
      else if n.head.hasError then n.children.findSome? firstError? else none := by
  obtain ⟨head, children⟩ := n
  rw [firstError?, firstErrorOf?_eq_findSome?]
  rfl

/-- Where the flags are right, nothing is missed by leaving out the nodes without one. -/
theorem firstError?_eq_firstFlaw? (h : n.FlagsFlaws) : n.firstError? = n.firstFlaw? := by
  induction n using induction_children with
  | mk head children ih =>
    rw [firstError?_eq, firstFlaw?_eq]
    split
    · rfl
    · split
      · next hflag =>
        rw [← List.head?_filterMap, ← List.head?_filterMap]
        congr 1
        refine List.filterMap_congr fun child hchild => ?_
        exact ih child hchild (h.of_contains (contains_of_mem_children hchild))
      · next hflag =>
        -- A flaw below a child would be one below the node, which has no flag.
        refine (List.findSome?_eq_none_iff.2 fun child hchild => ?_).symm
        refine firstFlaw?_eq_none fun hflawed => hflag ((h _ (.self _)).2 ?_)
        exact hflawed.of_contains (contains_of_mem_children hchild)

end Node

-- ---------------------------------------------------------------------------
-- Outcomes of parsing
-- ---------------------------------------------------------------------------

/-- The grammar that a source is parsed with first. -/
def chosenGrammar (path : String) (asked : Option String) : String :=
  asked.getD (grammarForPath path)

/-- A source is parsed a second time only if its path alone made it plain JavaScript. -/
def MayBeRetried (path : String) (asked : Option String) : Prop :=
  asked = none ∧ grammarForPath path = "javascript"

instance (path : String) (asked : Option String) : Decidable (MayBeRetried path asked) :=
  inferInstanceAs (Decidable (_ ∧ _))

theorem chosenGrammar_none (path : String) : chosenGrammar path none = grammarForPath path :=
  Option.getD_none

theorem mayBeRetried_none (path : String) :
    MayBeRetried path none ↔ grammarForPath path = "javascript" :=
  and_iff_right rfl

theorem chosenGrammar_of_mayBeRetried {path : String} {asked : Option String}
    (h : MayBeRetried path asked) : chosenGrammar path asked = "javascript" := by
  rw [h.1, chosenGrammar_none, h.2]

namespace Parsers

/-- The tree that the parser for a grammar makes of a source, if there is such a parser. -/
def tree? (parsers : Parsers) (content grammar : String) : Option Node :=
  if parsers.grammars.contains grammar then
    (parsers.outlines.lookup grammar).map (Node.ofOutline content)
  else none

/-- What parsing a source yields, by the trees that there are for it. -/
inductive Yields (parsers : Parsers) (path content : String) (asked : Option String) :
    Except Fault ParseResult → Prop
  | first {tree : Node} :
      parsers.tree? content (chosenGrammar path asked) = some tree → ¬ tree.IsFlawed →
      Yields parsers path content asked
        (.ok ⟨⟨tree, chosenGrammar path asked, byteLines (Utf8.encode content.toList)⟩, false⟩)
  | second {tree other : Node} :
      MayBeRetried path asked →
      parsers.tree? content "javascript" = some tree → tree.IsFlawed →
      parsers.tree? content "typescript" = some other → ¬ other.IsFlawed →
      Yields parsers path content asked
        (.ok ⟨⟨other, "typescript", byteLines (Utf8.encode content.toList)⟩, true⟩)
  | noFirst :
      parsers.tree? content (chosenGrammar path asked) = none →
      Yields parsers path content asked
        (.error (.parse ⟨path, none, .unavailable (chosenGrammar path asked)⟩))
  | noSecond {tree : Node} :
      MayBeRetried path asked →
      parsers.tree? content "javascript" = some tree → tree.IsFlawed →
      parsers.tree? content "typescript" = none →
      Yields parsers path content asked
        (.error (.parse ⟨path, none, .unavailable "typescript"⟩))
  | malformed {tree flaw : Node} :
      parsers.tree? content (chosenGrammar path asked) = some tree →
      tree.firstFlaw? = some flaw →
      (MayBeRetried path asked →
        ∃ other, parsers.tree? content "typescript" = some other ∧ other.IsFlawed) →
      Yields parsers path content asked
        (.error (.parse ⟨path, some flaw.line, .malformed (chosenGrammar path asked)⟩))

variable {parsers : Parsers} {path content : String} {asked : Option String}

theorem root_eq (parsers : Parsers) (path content grammar : String) :
    parsers.root path grammar (Utf8.encode content.toList) =
      match parsers.tree? content grammar with
      | some tree => .ok tree
      | none => .error (.parse ⟨path, none, .unavailable grammar⟩) := by
  unfold root tree?
  cases parsers.grammars.contains grammar with
  | false => rfl
  | true => cases parsers.outlines.lookup grammar <;> rfl

/-- The steps of parsing, with the choice of the first grammar and the condition of the second made
once. -/
theorem parse_eq (hasked : asked ≠ some "") :
    parsers.parse path content asked =
      (do
        let bytes := Utf8.encode content.toList
        let tree ← parsers.root path (chosenGrammar path asked) bytes
        if MayBeRetried path asked ∧ tree.head.hasError = true then
          let other ← parsers.root path "typescript" bytes
          if other.head.hasError then checked path (chosenGrammar path asked) bytes false tree
          else checked path "typescript" bytes true other
        else checked path (chosenGrammar path asked) bytes false tree) := by
  unfold parse
  cases asked with
  | some grammar =>
    have hne : grammar ≠ "" := fun h => hasked (congrArg some h)
    simp [chosenGrammar, MayBeRetried, hne]
  | none =>
    simp only [chosenGrammar_none, mayBeRetried_none]
    generalize grammarForPath path = grammar
    cases parsers.root path grammar (Utf8.encode content.toList) with
    | error fault => simp only [bind, Except.bind]
    | ok tree =>
      simp only [bind, Except.bind, retryGrammar?, defaultGrammar]
      by_cases hscript : grammar = "javascript"
      · cases tree.head.hasError <;> simp [hscript]
      · simp [hscript]

theorem exists_yields (parsers : Parsers) (path content : String) (asked : Option String) :
    ∃ outcome, parsers.Yields path content asked outcome := by
  cases hfirst : parsers.tree? content (chosenGrammar path asked) with
  | none => exact ⟨_, .noFirst hfirst⟩
  | some tree =>
    by_cases hflawed : tree.IsFlawed
    · obtain ⟨flaw, hflaw⟩ := Option.isSome_iff_exists.1 (Node.isSome_firstFlaw?_iff.2 hflawed)
      by_cases hretry : MayBeRetried path asked
      · have hscript : parsers.tree? content "javascript" = some tree := by
          rw [← hfirst, chosenGrammar, hretry.1, Option.getD_none, hretry.2]
        cases hsecond : parsers.tree? content "typescript" with
        | none => exact ⟨_, .noSecond hretry hscript hflawed hsecond⟩
        | some other =>
          by_cases hother : other.IsFlawed
          · exact ⟨_, .malformed hfirst hflaw fun _ => ⟨other, hsecond, hother⟩⟩
          · exact ⟨_, .second hretry hscript hflawed hsecond hother⟩
      · exact ⟨_, .malformed hfirst hflaw fun h => absurd h hretry⟩
    · exact ⟨_, .first hfirst hflawed⟩

theorem exists_outline_of_tree? {grammar : String} {tree : Node}
    (h : parsers.tree? content grammar = some tree) :
    ∃ entry ∈ parsers.outlines, tree = Node.ofOutline content entry.2 := by
  unfold tree? at h
  split at h
  · obtain ⟨outline, hlookup, rfl⟩ := Option.map_eq_some_iff.1 h
    obtain ⟨before, after, hentries, -⟩ := List.lookup_eq_some_iff.1 hlookup
    exact ⟨(grammar, outline), by simp [hentries], rfl⟩
  · cases h

theorem isPositioned_of_tree? (hpositioned : parsers.isPositioned) {grammar : String} {tree : Node}
    (h : parsers.tree? content grammar = some tree) : tree.isPositioned := by
  obtain ⟨entry, hentry, rfl⟩ := exists_outline_of_tree? h
  rw [Node.ofOutline, Outline.isPositioned_place]
  exact List.all_eq_true.1 hpositioned entry hentry

theorem flagsFlaws_of_tree?
    (hflags : ∀ entry ∈ parsers.outlines, (Node.ofOutline content entry.2).FlagsFlaws)
    {grammar : String} {tree : Node} (h : parsers.tree? content grammar = some tree) :
    tree.FlagsFlaws := by
  obtain ⟨entry, hentry, rfl⟩ := exists_outline_of_tree? h
  exact hflags entry hentry

/-- A tree that is kept is taken as it is if it has no flaw, and fails with the first one otherwise. -/
theorem checked_of_flagsFlaws {tree : Node} (hplace : tree.isPositioned) (h : tree.FlagsFlaws)
    (path grammar : String) (bytes : List UInt8) (retried : Bool) :
    checked path grammar bytes retried tree =
      if tree.IsFlawed then
        .error (.parse ⟨path, tree.firstFlaw?.map Node.line, .malformed grammar⟩)
      else .ok ⟨⟨tree, grammar, byteLines bytes⟩, retried⟩ := by
  rw [checked_eq hplace, Node.firstError?_eq_firstFlaw? h]
  simp only [h tree (.self tree)]

theorem parse_of_yields (hasked : asked ≠ some "") (hpositioned : parsers.isPositioned)
    (hflags : ∀ entry ∈ parsers.outlines, (Node.ofOutline content entry.2).FlagsFlaws)
    {outcome : Except Fault ParseResult} (h : parsers.Yields path content asked outcome) :
    parsers.parse path content asked = outcome := by
  have hflagged {grammar : String} {tree : Node} (htree : parsers.tree? content grammar = some tree) :
      tree.head.hasError = true ↔ tree.IsFlawed :=
    flagsFlaws_of_tree? hflags htree tree (.self tree)
  have hchecked {grammar : String} {tree : Node} (htree : parsers.tree? content grammar = some tree) :=
    checked_of_flagsFlaws (isPositioned_of_tree? hpositioned htree) (flagsFlaws_of_tree? hflags htree)
      path
  rw [parse_eq hasked]
  simp only [root_eq]
  cases h with
  | @first tree hfirst hclear =>
    have hflag : ¬ (MayBeRetried path asked ∧ tree.head.hasError = true) :=
      fun h => hclear ((hflagged hfirst).1 h.2)
    simp only [hfirst, bind, Except.bind]
    rw [if_neg hflag, hchecked hfirst, if_neg hclear]
  | @second tree other hretry hfirst hflawed hsecond hclear =>
    simp only [chosenGrammar_of_mayBeRetried hretry, hfirst, hsecond, bind, Except.bind]
    rw [if_pos ⟨hretry, (hflagged hfirst).2 hflawed⟩, if_neg (mt (hflagged hsecond).1 hclear),
      hchecked hsecond, if_neg hclear]
  | noFirst hfirst => simp only [hfirst, bind, Except.bind]
  | @noSecond tree hretry hfirst hflawed hsecond =>
    simp only [chosenGrammar_of_mayBeRetried hretry, hfirst, hsecond, bind, Except.bind]
    rw [if_pos ⟨hretry, (hflagged hfirst).2 hflawed⟩]
  | @malformed tree flaw hfirst hflaw hother =>
    have hflawed := Node.isFlawed_of_firstFlaw? hflaw
    simp only [hfirst, bind, Except.bind]
    split
    · next hretry =>
      obtain ⟨other, hsecond, hbroken⟩ := hother hretry.1
      simp only [hsecond]
      rw [if_pos ((hflagged hsecond).2 hbroken), hchecked hfirst, if_pos hflawed, hflaw]
      rfl
    · rw [hchecked hfirst, if_pos hflawed, hflaw]
      rfl

/-- Where every node has a position and flags are right, parsing yields what the trees say: that of the
chosen grammar if it has no flaw, that of TypeScript exactly if the path alone made the source plain
JavaScript, the first tree has a flaw and the second none, and else a fault: the first parser that was
needed and is not there, or the first flaw of the first tree. The search for that flaw finds the one that
a walk of the whole tree comes by first, and finds one in every tree that has any. -/
theorem parse_eq_iff_yields (path : String) (hasked : asked ≠ some "")
    (hpositioned : parsers.isPositioned)
    (hflags : ∀ entry ∈ parsers.outlines, (Node.ofOutline content entry.2).FlagsFlaws) :
    (∀ outcome, parsers.parse path content asked = outcome ↔
      parsers.Yields path content asked outcome) ∧
    ∀ grammar tree, parsers.tree? content grammar = some tree →
      tree.firstError? = tree.firstFlaw? ∧
      (tree.head.hasError = true → ∃ flaw, tree.firstError? = some flaw ∧ flaw.isFlaw = true) := by
  constructor
  · intro outcome
    refine ⟨?_, parse_of_yields hasked hpositioned hflags⟩
    rintro rfl
    obtain ⟨outcome, houtcome⟩ := exists_yields parsers path content asked
    rwa [parse_of_yields hasked hpositioned hflags houtcome]
  · intro grammar tree htree
    have hflagged := flagsFlaws_of_tree? hflags htree
    have hsearch := Node.firstError?_eq_firstFlaw? hflagged
    refine ⟨hsearch, fun herror => ?_⟩
    have hflawed := (hflagged tree (.self tree)).1 herror
    obtain ⟨flaw, hflaw⟩ := Option.isSome_iff_exists.1 (Node.isSome_firstFlaw?_iff.2 hflawed)
    exact ⟨flaw, hsearch.trans hflaw, List.find?_some hflaw⟩

end Parsers

namespace Sample

/-- A node with the flag for an error. -/
def flagged (kind : Kind) (start stop : Nat) (children : List Outline) : Outline :=
  .mk kind true false true none (some (start, stop)) children

/-- Two lines, with a flaw in the second one for JavaScript and in the first one for TypeScript. -/
def flawedParsers : Parsers where
  grammars := ["javascript", "typescript"]
  outlines := [
    ("javascript", flagged (.other "program") 0 3 [
      piece .identifier none 0 1 [], flagged .error 2 3 [piece .identifier none 2 3 []]]),
    ("typescript", flagged (.other "program") 0 3 [
      flagged .error 0 1 [piece .identifier none 0 1 []], piece .identifier none 2 3 []])]

end Sample

/-- The line of the fault is that of the flaw for JavaScript. -/
theorem Parsers.parse_flawed_twice :
    Sample.flawedParsers.isPositioned ∧
    (∀ entry ∈ Sample.flawedParsers.outlines, (Node.ofOutline "a\nb" entry.2).FlagsFlaws) ∧
    Sample.flawedParsers.parse "a.js" "a\nb" none =
      .error (.parse ⟨"a.js", some 2, .malformed "javascript"⟩) ∧
    ∃ tree flaw, Sample.flawedParsers.tree? "a\nb" "javascript" = some tree ∧
      tree.firstError? = some flaw ∧ flaw.isFlaw = true ∧ flaw.line = 2 := by
  have hpositioned : Sample.flawedParsers.isPositioned := by decide
  have hflags : ∀ entry ∈ Sample.flawedParsers.outlines,
      (Node.ofOutline "a\nb" entry.2).FlagsFlaws := by decide +kernel
  have hasked : (none : Option String) ≠ some "" := nofun
  obtain ⟨houtcome, hsearch⟩ := parse_eq_iff_yields "a.js" hasked hpositioned hflags
  obtain ⟨tree, htree, hflaw⟩ : ∃ tree, Sample.flawedParsers.tree? "a\nb" "javascript" = some tree ∧
      tree.firstFlaw?.map Node.line = some 2 := ⟨_, rfl, by decide +kernel⟩
  obtain ⟨other, hother, hbroken⟩ : ∃ other, Sample.flawedParsers.tree? "a\nb" "typescript" = some other ∧
      other.IsFlawed := ⟨_, rfl, by decide +kernel⟩
  obtain ⟨flaw, hfirst, hline⟩ := Option.map_eq_some_iff.1 hflaw
  have hchosen : chosenGrammar "a.js" none = "javascript" := rfl
  have hmalformed := (houtcome _).2 <|
    .malformed (hchosen ▸ htree) hfirst fun _ => ⟨other, hother, hbroken⟩
  rw [hchosen, hline] at hmalformed
  have hfound := (hsearch _ tree htree).1.trans hfirst
  exact ⟨hpositioned, hflags, hmalformed, tree, flaw, htree, hfound, List.find?_some hfirst, hline⟩

end FlakeLint
