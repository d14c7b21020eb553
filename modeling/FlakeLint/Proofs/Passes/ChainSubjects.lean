-- SUMMARY: The functions that the chain pass looks at, by address, and why none is reported twice.
import FlakeLint.Proofs.Passes.MissingPositions
import FlakeLint.Proofs.Passes.RetryNames
import FlakeLint.Proofs.Tree.Address
import FlakeLint.Proofs.Tree.Outline

/-!
# Functions checked for broken chains

A function is checked as the callback of a call of `.then`, or on its own as a helper.
What it is checked as is settled by what stands around it: a callback stands in the
arguments of its call, a helper that is a value stands in what it is assigned to. So
every function is checked in one way only, and reported at most once.
-/

namespace FlakeLint

-- ---------------------------------------------------------------------------
-- First arguments
-- ---------------------------------------------------------------------------

namespace Node

/-- The address of the first argument of a call, seen from the call. -/
def firstArgument? (call : Node) : Option (List Nat) :=
  (call.children.findIdx? fun child => child.head.role = some .arguments).bind fun i =>
    (call.children[i]?.filter fun args => args.kind = .arguments).bind fun args =>
      (args.children.findIdx? fun child => child.head.named && child.kind ≠ .comment).map
        fun j => [i, j]

end Node

namespace Cursor

/-- The address leads from the call to its arguments and on to one of them. -/
theorem at?_of_firstArgument? {place : Cursor} {rest : List Nat}
    (h : place.node.firstArgument? = some rest) :
    ∃ i j args argument, rest = [i, j] ∧ args.kind = .arguments ∧
      place.at? rest = some ⟨argument, args :: place.node :: place.above⟩ := by
  obtain ⟨i, hi, hargs⟩ := Option.bind_eq_some_iff.1 h
  obtain ⟨args, hfound, hfirst⟩ := Option.bind_eq_some_iff.1 hargs
  obtain ⟨j, hj, rfl⟩ := Option.map_eq_some_iff.1 hfirst
  obtain ⟨hget, hkind⟩ := Option.filter_eq_some_iff.1 hfound
  obtain ⟨hlt, -, -⟩ := List.findIdx?_eq_some_iff_getElem.1 hj
  refine ⟨i, j, args, args.children[j], rfl, of_decide_eq_true hkind, ?_⟩
  simp [at?_cons, children, hget]

theorem exists_firstArgument? {place : Cursor} {argument : Node}
    (h : place.node.arguments.head? = some argument) :
    ∃ rest callback, place.node.firstArgument? = some rest ∧ place.at? rest = some callback ∧
      callback.node = argument := by
  unfold Node.arguments at h
  split at h
  · next args hargs =>
    split at h
    · next hkind =>
      rw [Node.child?, List.find?_eq_bind_findIdx?_getElem?] at hargs
      rw [Node.parts, List.head?_filter, List.find?_eq_bind_findIdx?_getElem?] at h
      obtain ⟨i, hi, hget⟩ := Option.bind_eq_some_iff.1 hargs
      obtain ⟨j, hj, hargument⟩ := Option.bind_eq_some_iff.1 h
      refine ⟨[i, j], ⟨argument, args :: place.node :: place.above⟩, ?_, ?_, rfl⟩
      · have hfound : place.node.children[i]?.filter (fun args => args.kind = .arguments) =
            some args := by
          rw [hget]
          exact Option.filter_some_pos (decide_eq_true hkind)
        unfold Node.firstArgument?
        rw [hi, Option.bind_some, hfound, Option.bind_some, hj]
        rfl
      · simp [at?_cons, children, hget, hargument]
    · cases h
  · cases h

end Cursor

namespace BrokenChain

variable {root : Cursor} {address : List Nat}

-- ---------------------------------------------------------------------------
-- Checks
-- ---------------------------------------------------------------------------

/-- How a function is checked: as the callback of the call at an address, or as a helper. -/
inductive Check where
  | callback (call : List Nat)
  | helper
deriving DecidableEq, Repr

/-- The function at the address is checked in this way. -/
inductive IsChecked (root : Cursor) : Check → List Nat → Prop where
  | callback {call rest : List Nat} {place function : Cursor} :
    root.at? call = some place → isThenCall place = true → place.node.firstArgument? = some rest →
    place.at? rest = some function → function.kind.isCallback = true →
    IsChecked root (.callback call) (call ++ rest)
  | helper {address : List Nat} {function : Cursor} :
    root.at? address = some function → isHelper function = true → IsChecked root .helper address

/-- The address of the place at which the pass checks the function at an address. -/
def Check.place : Check → List Nat → List Nat
  | .callback call, _ => call
  | .helper, address => address

/-- A function value that stands in arguments is no helper. -/
theorem isHelper_eq_false {function args : Node} {above : List Node}
    (hcallback : function.kind.isCallback = true) (hargs : args.kind = .arguments) :
    isHelper ⟨function, args :: above⟩ = false := by
  have hvalue : (Cursor.mk function (args :: above)).kind.isFunctionDeclaration = false :=
    Kind.isFunctionDeclaration_eq_false hcallback
  have hkind : (Cursor.mk args above).kind = .arguments := hargs
  have hbinder : (Cursor.mk function (args :: above)).binder? = some ⟨args, above⟩ := by
    refine Cursor.binder?_eq_some_iff.2 ⟨?_, [], rfl, nofun⟩
    rw [hkind]
    decide
  unfold isHelper
  rw [hvalue, hbinder, Option.any_some, hkind]
  simp

/-- A callback stands in the arguments of its call, two steps below it. -/
theorem IsChecked.callback_cases {call : List Nat} (h : IsChecked root (.callback call) address) :
    ∃ i j args above function, address = call ++ [i, j] ∧ args.kind = .arguments ∧
      root.at? address = some ⟨function, args :: above⟩ ∧ function.kind.isCallback = true := by
  cases h with
  | @callback _ rest place function hcall _ hrest hfunction hcallback =>
    obtain ⟨i, j, args, argument, rfl, hargs, hat⟩ := Cursor.at?_of_firstArgument? hrest
    rw [hat] at hfunction
    cases hfunction
    refine ⟨i, j, args, place.node :: place.above, argument, rfl, hargs, ?_, hcallback⟩
    rw [Cursor.at?_append, hcall, Option.bind_some, hat]

theorem IsChecked.callback_unique {call call' : List Nat}
    (h : IsChecked root (.callback call) address)
    (h' : IsChecked root (.callback call') address) : call = call' := by
  obtain ⟨i, j, -, -, -, haddress, -⟩ := h.callback_cases
  obtain ⟨i', j', -, -, -, haddress', -⟩ := h'.callback_cases
  exact (List.append_inj' (haddress.symm.trans haddress') rfl).1

theorem IsChecked.not_helper {call : List Nat} (h : IsChecked root (.callback call) address) :
    ¬ IsChecked root .helper address := by
  obtain ⟨_, _, args, above, function, -, hargs, hat, hcallback⟩ := h.callback_cases
  intro h'
  cases h' with
  | helper hat' hhelper =>
    rw [hat] at hat'
    cases hat'
    rw [isHelper_eq_false hcallback hargs] at hhelper
    cases hhelper

/-- A function is checked in one way only. -/
theorem IsChecked.unique {check check' : Check} (h : IsChecked root check address)
    (h' : IsChecked root check' address) : check = check' := by
  match check, check' with
  | .callback _, .callback _ => exact congrArg Check.callback (h.callback_unique h')
  | .callback _, .helper => exact absurd h' h.not_helper
  | .helper, .callback _ => exact absurd h h'.not_helper
  | .helper, .helper => rfl

-- ---------------------------------------------------------------------------
-- Reports
-- ---------------------------------------------------------------------------

/-- What the pass reports, with the address of the function that it is about. -/
structure Report where
  address : List Nat
  finding : Finding
  function : Node

/-- The address, seen from a place, of the function that is checked there. -/
def subject? (place : Cursor) : Option (List Nat) :=
  if isThenCall place then place.node.firstArgument? else some []

/-- The report at the place of an address. -/
def reportAt? (root : Cursor) (address : List Nat) : Option Report :=
  (root.at? address).bind fun place =>
    (brokenAt? place).bind fun (finding, function) =>
      (subject? place).map fun rest => ⟨address ++ rest, finding, function⟩

/-- The reports of the pass, in the order of the places. -/
def reports (root : Cursor) : List Report :=
  root.node.addresses.filterMap (reportAt? root)

/-- A function that is reported at a place was checked there. -/
theorem exists_subject? {place : Cursor} {finding : Finding} {function : Node}
    (hat : root.at? address = some place) (h : brokenAt? place = some (finding, function)) :
    ∃ rest check, subject? place = some rest ∧ IsChecked root check (address ++ rest) ∧
      check.place (address ++ rest) = address ∧
      (root.at? (address ++ rest)).map Cursor.node = some function := by
  rcases brokenAt?_cases h with ⟨hthen, hfirst, hcallback⟩ | ⟨hother, hhelper, rfl⟩
  · obtain ⟨rest, found, hrest, hfound, rfl⟩ := Cursor.exists_firstArgument? hfirst
    have hkind : found.kind.isCallback = true := (Bool.and_eq_true_iff.1 hcallback).1
    refine ⟨rest, .callback address, ?_, .callback hat hthen hrest hfound hkind, rfl, ?_⟩
    · rw [subject?, if_pos hthen, hrest]
    · rw [Cursor.at?_append, hat, Option.bind_some, hfound, Option.map_some]
  · refine ⟨[], .helper, ?_, ?_, ?_, ?_⟩
    · rw [subject?, hother, if_neg Bool.false_ne_true]
    · rw [List.append_nil]
      exact .helper hat hhelper
    · exact List.append_nil address
    · rw [List.append_nil, hat, Option.map_some]

/-- The reports are the issues of the pass, one for one. -/
theorem map_reports (root : Cursor) :
    (reports root).map (fun report => (report.finding, report.function)) =
      root.walk.filterMap brokenAt? := by
  have hreport : ∀ address, (reportAt? root address).map
      (fun report => (report.finding, report.function)) = (root.at? address).bind brokenAt? := by
    intro address
    unfold reportAt?
    cases hat : root.at? address with
    | none => rfl
    | some place =>
      rw [Option.bind_some, Option.bind_some]
      cases hbroken : brokenAt? place with
      | none => rfl
      | some found =>
        obtain ⟨rest, -, hsubject, -⟩ := exists_subject? hat hbroken
        rw [Option.bind_some, hsubject]
        rfl
  calc (reports root).map (fun report => (report.finding, report.function))
      = root.node.addresses.filterMap fun address => (root.at? address).bind brokenAt? := by
        unfold reports
        rw [List.map_filterMap]
        exact List.filterMap_congr fun address _ => hreport address
    _ = (root.node.addresses.map root.at?).filterMap fun found => found.bind brokenAt? := by
        rw [List.filterMap_map]
        rfl
    _ = root.walk.filterMap brokenAt? := by
        rw [Cursor.map_at?_addresses, List.filterMap_map]
        rfl

theorem isChecked_of_reportAt? {report : Report} (h : reportAt? root address = some report) :
    ∃ check, IsChecked root check report.address ∧ check.place report.address = address ∧
      (root.at? report.address).map Cursor.node = some report.function := by
  obtain ⟨place, hat, hbroken⟩ := Option.bind_eq_some_iff.1 h
  obtain ⟨⟨finding, function⟩, hfound, hreport⟩ := Option.bind_eq_some_iff.1 hbroken
  obtain ⟨rest, check, hsubject, hchecked, hplace, hnode⟩ := exists_subject? hat hfound
  dsimp only at hreport
  rw [hsubject] at hreport
  cases hreport
  exact ⟨check, hchecked, hplace, hnode⟩

theorem nodup_addresses_reports (root : Cursor) : ((reports root).map Report.address).Nodup := by
  unfold reports
  rw [List.map_filterMap]
  refine List.Nodup.filterMap ?_ root.node.nodup_addresses
  intro address address' subject h h'
  obtain ⟨report, hreport, rfl⟩ := Option.map_eq_some_iff.1 h
  obtain ⟨report', hreport', hsame⟩ := Option.map_eq_some_iff.1 h'
  obtain ⟨check, hchecked, hplace, -⟩ := isChecked_of_reportAt? hreport
  obtain ⟨check', hchecked', hplace', -⟩ := isChecked_of_reportAt? hreport'
  rw [hsame] at hchecked' hplace'
  rw [← hplace, ← hplace', hchecked.unique hchecked']

/-- The issues of the pass are about functions at addresses that are all different; and every function
is checked in one way only: as the callback of one call, or as a helper. -/
theorem functions_reported_once (file : TestFile) :
    issues file = (reports file.cursor).map
      (fun report => file.issueAt report.finding report.function) ∧
    (∀ report ∈ reports file.cursor,
      (file.cursor.at? report.address).map Cursor.node = some report.function ∧
      ∃ check, IsChecked file.cursor check report.address) ∧
    ((reports file.cursor).map Report.address).Nodup ∧
    (∀ address check check', IsChecked file.cursor check address →
      IsChecked file.cursor check' address → check = check') := by
  refine ⟨?_, ?_, nodup_addresses_reports file.cursor, fun _ _ _ => IsChecked.unique⟩
  · unfold issues
    rw [← map_reports, List.map_map]
    rfl
  · intro report hreport
    obtain ⟨address, -, hat⟩ := List.mem_filterMap.1 hreport
    obtain ⟨check, hchecked, -, hnode⟩ := isChecked_of_reportAt? hat
    exact ⟨hnode, check, hchecked⟩

end BrokenChain

namespace Sample

/-- A helper that returns nothing, and in it a callback that returns nothing. -/
def nestedFunctions : TestFile :=
  .ofOutline "a.cy.js"
      "const f = () => \x7b\n  cy.get('a').then(() => \x7b cy.b(); \x7d);\n\x7d;" defaultGrammar <|
    piece (.other "program") none 0 59 [
      piece .declarator none 6 58 [
        piece .identifier (some .name) 6 7 [],
        piece .arrowFunction none 10 58 [
          piece .block (some .body) 16 58 [
            methodCall none 20 32 36 55
              (methodCall (some .object) 20 23 26 31 (piece .identifier (some .object) 20 22 [])
                [piece .string none 27 30 []])
              [piece .arrowFunction none 37 54 [
                piece .block (some .body) 43 54 [
                  methodCall none 45 48 49 51 (piece .identifier (some .object) 45 47 [])
                    []]]]]]]]

/-- The place of the inner call in it. -/
def nestedCall : Cursor :=
  (nestedFunctions.cursor.at? [0, 1, 0, 0]).get (by decide +kernel)

/-- The place of its callback. -/
def nestedCallback : Cursor :=
  (nestedCall.at? [1, 0]).get (by decide +kernel)

end Sample

/-- Both functions are reported, the inner one as the callback of its call alone. -/
theorem BrokenChain.functions_reported_once_nested :
    (reports Sample.nestedFunctions.cursor).map Report.address =
      [[0, 1], [0, 1, 0, 0, 1, 0]] ∧
    IsChecked Sample.nestedFunctions.cursor (.callback [0, 1, 0, 0]) [0, 1, 0, 0, 1, 0] ∧
    ¬ IsChecked Sample.nestedFunctions.cursor .helper [0, 1, 0, 0, 1, 0] := by
  obtain ⟨-, -, -, hunique⟩ := functions_reported_once Sample.nestedFunctions
  have hcall : Sample.nestedFunctions.cursor.at? [0, 1, 0, 0] = some Sample.nestedCall :=
    (Option.some_get _).symm
  have hcallback : Sample.nestedCall.at? [1, 0] = some Sample.nestedCallback :=
    (Option.some_get _).symm
  have hchecked : IsChecked Sample.nestedFunctions.cursor (.callback [0, 1, 0, 0])
      ([0, 1, 0, 0] ++ [1, 0]) :=
    .callback hcall (by decide +kernel) (by decide +kernel) hcallback (by decide +kernel)
  refine ⟨by decide +kernel, hchecked, fun hhelper => ?_⟩
  cases hunique _ _ _ hchecked hhelper

end FlakeLint
