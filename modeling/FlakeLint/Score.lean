-- SUMMARY: Scores from 0 to 100, their text, and the grades they earn.
import FlakeLint.Issue
import FlakeLint.Number.Basic
import FlakeLint.Table

/-!
# Scores

Of the 100 points, 70 are for the share of tests without issues and 30 are a
budget that issues use up by severity. The formulas are stated for any
`Quantity`: they run on numbers and can be read on exact fractions.
-/

namespace FlakeLint

namespace Severity

/-- What an issue takes from the budget, in halves of a point. -/
def penaltyHalves : Severity → Int
  | .high => 12
  | .medium => 6
  | .veryHigh | .low | .info | .other _ => 3

end Severity

namespace Score

variable {α : Type} [Quantity α]

def passWeight : Int := 70
def issueBudget : Int := 30

/-- How many of the tests fail: those with issues, or, where issues are not told apart by test, all as
soon as there is any issue. -/
def failingTests {β : Type} (tests : Nat) (anyIssue : Bool)
    (buckets : Option (Table Int (List β))) : Nat :=
  match buckets with
  | none => if anyIssue then tests else 0
  | some buckets =>
    ((List.range tests).filter fun i : Nat => !((buckets.get? (Int.ofNat i)).getD []).isEmpty).length

/-- The sum of what the issues take from the budget. -/
def penalty (severities : List Severity) : Except Fault α :=
  severities.foldlM (fun sum severity => Quantity.add sum (Quantity.halves severity.penaltyHalves))
    (Quantity.ofInt 0)

/-- Brings a value into the range of scores. -/
def clamp (x : α) : α :=
  Quantity.smaller (Quantity.ofInt 100) (Quantity.larger (Quantity.ofInt 0) x)

/-- The score of a file with so many tests, of which `failing` fail. A file without tests counts as
having one. -/
def blend (tests failing : Nat) (severities : List Severity) : Except Fault α := do
  let passed ← Quantity.divide (Quantity.ofInt (passWeight * ((tests : Int) - failing)))
    (Quantity.ofInt (tests : Int))
  let total ← Quantity.sub (← Quantity.add passed (Quantity.ofInt issueBudget))
    (← penalty severities)
  Quantity.roundTenth (clamp total)

/-- The score of a file from its issues and, if known, from what issues lie in which test. -/
def ofIssues {β : Type} (severities : List Severity) (tests : Nat)
    (buckets : Option (Table Int (List β))) : Except Fault α :=
  let tests := max 1 tests
  blend tests (failingTests tests (!severities.isEmpty) buckets) severities

/-! ## Averages -/

/-- The mean, rounded to one decimal place; a missing score counts as 100, and so do none at all. -/
def average (scores : List (Option α)) : Except Fault α := do
  match scores with
  | [] => return Quantity.halves 200
  | _ =>
    let sum ← scores.foldlM (fun sum score => Quantity.add sum (score.getD (Quantity.halves 200)))
      (Quantity.ofInt 0)
    let mean ← Quantity.divide sum (Quantity.ofInt (scores.length : Int))
    return Quantity.larger (Quantity.halves 0) (← Quantity.roundTenth mean)

/-! ## Grades -/

/-- The lowest score for each grade but the last, best grade first. -/
def thresholds : List (Int × Grade) :=
  [(90, .excellent), (75, .good), (60, .fair), (40, .moderateRisk)]

def grade (score : α) : Grade :=
  match thresholds.find? fun threshold => Quantity.le (Quantity.ofInt threshold.1) score with
  | some threshold => threshold.2
  | none => .highRisk

/-! ## Text -/

/-- A score without a fraction is written as a whole number. -/
def text (score : Option Number) : Except Fault String :=
  match score with
  | none => .ok "n/a"
  | some (.real d) => (Number.ofDouble d).text
  | some (.int n) => do
    let _ ← Number.intToDouble n
    Number.intText n

end Score

end FlakeLint
