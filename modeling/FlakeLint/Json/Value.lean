-- SUMMARY: JSON values with ordered tables; equality and truth of values.
import FlakeLint.Number.Basic
import FlakeLint.Table
import FlakeLint.Text.Utf16

/-!
# JSON values

A document keeps the order of its keys and the difference between whole numbers
and doubles. Equality looks at values alone: the order of keys does not count,
equal numbers are equal however they are held, and a boolean equals 0 or 1. It is
asked of the members of lists, where `nan` is found again, as one value stands for
every `nan` of every document.
-/

namespace FlakeLint

inductive Json where
  | null
  | bool (value : Bool)
  | number (value : Number)
  | text (value : Utf16)
  | list (items : List Json)
  | table (entries : List (Utf16 × Json))

namespace Json

def ofString (s : String) : Json :=
  .text s

def asNumber? : Json → Option Number
  | .bool b => some (.int (if b then 1 else 0))
  | .number n => some n
  | _ => none

/-- The same number, or numbers equal in value. -/
def alikeNumbers (m n : Number) : Bool :=
  m == n || m.same n

mutual
def alike : Json → Json → Bool
  | .null, .null => true
  | .text s, .text t => s == t
  | .list xs, .list ys => alikeItems xs ys
  | .table xs, .table ys => xs.length == ys.length && alikeEntries xs ys
  | .bool a, y => match y.asNumber? with
    | some n => alikeNumbers (.int (if a then 1 else 0)) n
    | none => false
  | .number m, y => match y.asNumber? with
    | some n => alikeNumbers m n
    | none => false
  | _, _ => false

def alikeItems : List Json → List Json → Bool
  | [], [] => true
  | x :: xs, y :: ys => alike x y && alikeItems xs ys
  | _, _ => false

/-- Every entry has an equal one in the other table. -/
def alikeEntries : List (Utf16 × Json) → List (Utf16 × Json) → Bool
  | [], _ => true
  | (key, x) :: xs, ys =>
    (match Table.get? ys key with
      | some y => alike x y
      | none => false) && alikeEntries xs ys
end

/-- Null, false, zero and everything empty count as false. -/
def isTrue : Json → Bool
  | .null => false
  | .bool b => b
  | .number n => !n.isZero
  | .text s => !s.isEmpty
  | .list items => !items.isEmpty
  | .table entries => !entries.isEmpty

def isBool : Json → Bool
  | .bool _ => true
  | _ => false

def isText : Json → Bool
  | .text _ => true
  | _ => false

end Json

end FlakeLint
