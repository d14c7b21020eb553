-- SUMMARY: Decimal text of doubles: shortest digits, fixed places, and reading.
import FlakeLint.Number.Double

/-!
# Decimal text

`shortest` finds the fewest decimal digits that read back as the same double,
and among those the nearest. The other direction rounds a decimal numeral once.
-/

namespace FlakeLint.Double

/-! ## The fewest digits -/

/-- Number of decimal digits of a positive number. -/
def digitCount (n : Nat) : Nat :=
  (Nat.toDigits 10 n).length

/-- Where the first digit of `num / den` stands: the power of ten below or at the quotient. -/
def leadingPlace (num den : Nat) : Int :=
  if den ≤ num then (digitCount (num / den) : Int) - 1
  else -(digitCount ((den + num - 1) / num - 1) : Int)

/-- The points of a decimal grid around a value, all three bounds in the same unit: `low`, `middle`
and `high` over `unit` count grid steps. Yields the nearest grid point inside the bounds; the bounds
themselves count when `closed` holds, and of two equally near points the even one wins. -/
def gridPoint? (low middle high unit : Nat) (closed : Bool) : Option Nat :=
  let inside (d : Nat) : Bool :=
    (low < d * unit && d * unit < high) || (closed && (d * unit == low || d * unit == high))
  let d := middle / unit
  let below := middle - d * unit
  let above := (d + 1) * unit - middle
  match inside d, inside (d + 1) with
  | true, true =>
    if below < above then some d else if above < below then some (d + 1)
    else if d % 2 = 0 then some d else some (d + 1)
  | true, false => some d
  | false, true => some (d + 1)
  | false, false => none

/-- Digits and exponent of the shortest decimal that reads back as `m · 2 ^ e`, for `m > 0`.
The doubles next to it leave half a step on either side, or a quarter below a power of two. -/
def shortest (m : Nat) (e : Int) : Nat × Int :=
  let quarter := e - 2
  let low :=
    if m = Nat.pow 2 (mantissaBits - 1) ∧ lowestExponent < e then 4 * m - 1 else 4 * m - 2
  let place := leadingPlace (m * Nat.pow 2 e.toNat) (Nat.pow 2 (-e).toNat)
  let attempt (digits : Nat) : Option (Nat × Int) :=
    let power := place - digits
    let scale := Nat.pow 2 quarter.toNat * Nat.pow 10 (-power).toNat
    let unit := Nat.pow 10 power.toNat * Nat.pow 2 (-quarter).toNat
    (gridPoint? (low * scale) (4 * m * scale) ((4 * m + 2) * scale) unit (m % 2 == 0)).map
      fun d => (d, power)
  ((List.range 17).findSome? attempt).getD (m, 0)

/-! ## Text -/

/-- A number is written out in full from this exponent of its first digit … -/
def positionalFrom : Int := -4

/-- … up to below this one, and with an exponent of at least two digits otherwise. -/
def positionalBelow : Int := 16

def zeros (n : Nat) : String :=
  String.ofList (List.replicate n '0')

/-- Writes digits with the decimal point after the first `point` of them, and at least one digit on
either side of it. -/
def positional (digits : List Char) (point : Int) : String :=
  if point ≤ 0 then "0." ++ zeros (-point).toNat ++ String.ofList digits
  else
    let whole := digits.take point.toNat
    let rest := digits.drop point.toNat
    String.ofList whole ++ zeros (point.toNat - digits.length) ++ "." ++
      (if rest.isEmpty then "0" else String.ofList rest)

/-- Writes digits with an exponent for the first of them. -/
def scientific (digits : List Char) (exponent : Int) : String :=
  let fraction := digits.drop 1
  let size := toString exponent.natAbs
  String.ofList (digits.take 1) ++
    (if fraction.isEmpty then "" else "." ++ String.ofList fraction) ++
    (if exponent < 0 then "e-" else "e+") ++ (if size.length < 2 then "0" ++ size else size)

/-- The fewest digits that read back, always with a point, an exponent or a word. -/
def text : Double → String
  | .nan => "nan"
  | .infinite negative => if negative then "-inf" else "inf"
  | .finite negative m e =>
    let sign := if negative then "-" else ""
    if m = 0 then sign ++ "0.0"
    else
      let (d, power) := shortest m e
      let all := Nat.toDigits 10 d
      let digits := (all.reverse.dropWhile (· == '0')).reverse
      let point := all.length + power
      if positionalFrom ≤ point - 1 ∧ point - 1 < positionalBelow then
        sign ++ positional digits point
      else sign ++ scientific digits (point - 1)

/-- One digit after the point; the exact value is rounded, a tie to the even digit. -/
def textToTenth : Double → String
  | .nan => "nan"
  | .infinite negative => if negative then "-inf" else "inf"
  | .finite negative m e =>
    let tenths := roundHalfEven (m * 10 * Nat.pow 2 e.toNat) (Nat.pow 2 (-e).toNat)
    let sign := if negative then "-" else ""
    s!"{sign}{tenths / 10}.{tenths % 10}"

/-! ## Reading -/

/-- The double nearest to `± digits · 10 ^ power`. Powers far outside the range are not computed. -/
def ofDecimal (negative : Bool) (digits : Nat) (power : Int) : Double :=
  if digits = 0 then .finite negative 0 lowestExponent
  else
    let place := digitCount digits + power
    if 400 < place then .infinite negative
    else if place < -400 then .finite negative 0 lowestExponent
    else nearest negative (digits * Nat.pow 10 power.toNat) (Nat.pow 10 (-power).toNat)

end FlakeLint.Double
