-- SUMMARY: Numbers that are whole or double-precision, and arithmetic shared with exact fractions.
import FlakeLint.Fault
import FlakeLint.Number.Decimal

/-!
# Numbers

A number is a whole number of any size or a double. Mixed operations turn the
whole number into a double, which fails only beyond the largest double;
comparisons are exact.

`Quantity` names the operations that scores are made of. Its two instances let
one formula be computed on numbers and reasoned about on exact fractions.
-/

namespace FlakeLint

inductive Number where
  | int (value : Int)
  | real (value : Double)
deriving DecidableEq, Repr

namespace Number

/-! ## Conversions -/

/-- The double nearest to a whole number. -/
def intToDouble (n : Int) : Except Fault Double :=
  match Double.ofInt n with
  | .infinite _ => .error (.number .integerToDouble)
  | d => .ok d

def toDouble : Number → Except Fault Double
  | .int n => intToDouble n
  | .real d => .ok d

/-- A double without fraction becomes a whole number, exactly. -/
def ofDouble (d : Double) : Number :=
  if d.isWhole then
    match d.floor? with
    | some n => .int n
    | none => .real d
  else .real d

def isZero : Number → Bool
  | .int n => n == 0
  | .real (.finite _ m _) => m == 0
  | .real _ => false

/-! ## Text -/

def intText (n : Int) : Except Fault String :=
  let text := toString n
  if digitLimit < (toString n.natAbs).length then .error (.number .tooLongToWrite) else .ok text

def text : Number → Except Fault String
  | .int n => intText n
  | .real d => .ok d.text

/-- One digit after the point. -/
def textToTenth (n : Number) : Except Fault String := do
  return (← n.toDouble).textToTenth

/-! ## Order -/

def compare? : Number → Number → Option Ordering
  | .int m, .int n => some (compare m n)
  | .int m, .real y => (y.compareInt? m).map Ordering.swap
  | .real x, .int n => x.compareInt? n
  | .real x, .real y => x.compare? y

def le (m n : Number) : Bool :=
  match m.compare? n with
  | some .lt | some .eq => true
  | _ => false

def lt (m n : Number) : Bool :=
  m.compare? n == some .lt

/-- Equal in value, whichever way the two are held. -/
def same (m n : Number) : Bool :=
  m.compare? n == some .eq

/-! ## Arithmetic -/

/-- Applies the whole-number operation to two whole numbers, and the other one to doubles. -/
def combine (onInts : Int → Int → Int) (onDoubles : Double → Double → Double) :
    Number → Number → Except Fault Number
  | .int m, .int n => .ok (.int (onInts m n))
  | m, n => do return .real (onDoubles (← m.toDouble) (← n.toDouble))

/-- The quotient as a double; that of two whole numbers is rounded only once. -/
def divide : Number → Number → Except Fault Number
  | .int m, .int n =>
    match Double.ofQuotient (if n < 0 then -m else m) n.natAbs with
    | .infinite _ => .error (.number .quotientToDouble)
    | d => .ok (.real d)
  | m, n => do return .real ((← m.toDouble).div (← n.toDouble))

def floor : Number → Except Fault Int
  | .int n => .ok n
  | .real .nan => .error (.number .nanToInteger)
  | .real (.infinite _) => .error (.number .infinityToInteger)
  | .real d => .ok (d.floor?.getD 0)

end Number

/-! ## Quantities -/

/-- What a score is computed with. Operations may fail where the result has no place. -/
class Quantity (α : Type) where
  ofInt : Int → α
  /-- So many halves. -/
  halves : Int → α
  add : α → α → Except Fault α
  sub : α → α → Except Fault α
  mul : α → α → Except Fault α
  divide : α → α → Except Fault α
  le : α → α → Bool
  floor : α → Except Fault Int

instance : Quantity Number where
  ofInt := .int
  halves n := .real (Double.ofQuotient n 2)
  add := Number.combine (· + ·) Double.add
  sub := Number.combine (· - ·) Double.sub
  mul := Number.combine (· * ·) Double.mul
  divide := Number.divide
  le := Number.le
  floor := Number.floor

instance : Quantity Rat where
  ofInt n := n
  halves n := n / 2
  add x y := .ok (x + y)
  sub x y := .ok (x - y)
  mul x y := .ok (x * y)
  divide x y := .ok (x / y)
  le x y := decide (x ≤ y)
  floor x := .ok x.floor

namespace Quantity

variable {α : Type} [Quantity α]

/-- The larger of the two, the first of equal ones. -/
def larger (x y : α) : α :=
  if le y x then x else if le x y then y else x

/-- The smaller of the two, the first of equal ones. -/
def smaller (x y : α) : α :=
  if le x y then x else if le y x then y else x

/-- Rounded half up to one decimal place. -/
def roundTenth (x : α) : Except Fault α := do
  let shifted ← add (← mul x (ofInt 10)) (halves 1)
  divide (ofInt (← floor shifted)) (ofInt 10)

end Quantity

end FlakeLint
