-- SUMMARY: Double-precision numbers as exact binary fractions, with rounding to nearest.

/-!
# Double-precision numbers

A finite double is `± mantissa · 2 ^ exponent`. Sums, products and quotients
are taken exactly and rounded once by `Double.nearest`: to the closest double,
a tie to the even mantissa. `Double.value` gives the exact rational number.
-/

namespace FlakeLint

inductive Double where
  | finite (negative : Bool) (mantissa : Nat) (exponent : Int)
  | infinite (negative : Bool)
  | nan
deriving DecidableEq, Repr

/-- The quotient rounded to the nearest whole number, a tie to the even one. -/
def roundHalfEven (num den : Nat) : Nat :=
  let q := num / den
  let r := num % den
  if 2 * r < den then q
  else if den < 2 * r then q + 1
  else if q % 2 = 0 then q else q + 1

theorem le_roundHalfEven (num den : Nat) : num / den ≤ roundHalfEven num den := by
  unfold roundHalfEven
  dsimp only
  split <;> (try split) <;> (try split) <;> omega

namespace Double

def mantissaBits : Nat := 53
def lowestExponent : Int := -1074
def highestExponent : Int := 971

def zero : Double := .finite false 0 lowestExponent

/-! ## Rounding -/

/-- Numerator and denominator of `(num / den) / 2 ^ e`. -/
def unscale (num den : Nat) (e : Int) : Nat × Nat :=
  (num * Nat.pow 2 (-e).toNat, den * Nat.pow 2 e.toNat)

/-- The exponent at which `num / den` has the full number of mantissa bits, or the lowest one.
The difference of the binary lengths is off by one at most, which the quotient then decides. -/
def exponentOf (num den : Nat) : Int :=
  let guess : Int := max ((num.log2 : Int) - den.log2 - mantissaBits) lowestExponent
  let (n, d) := unscale num den guess
  if n / d < Nat.pow 2 mantissaBits then guess else guess + 1

/-- The double nearest to `± num / den`. -/
def nearest (negative : Bool) (num den : Nat) : Double :=
  if num = 0 then .finite negative 0 lowestExponent
  else
    let e := exponentOf num den
    let (n, d) := unscale num den e
    let m := roundHalfEven n d
    let (m, e) :=
      if m = Nat.pow 2 mantissaBits then (Nat.pow 2 (mantissaBits - 1), e + 1) else (m, e)
    if highestExponent < e then .infinite negative else .finite negative m e

/-- The double nearest to `n · 2 ^ e`; `negativeZero` is the sign of a zero result. -/
def ofScaled (negativeZero : Bool) (n : Int) (e : Int) : Double :=
  if n = 0 then .finite negativeZero 0 lowestExponent
  else nearest (n < 0) (n.natAbs * Nat.pow 2 e.toNat) (Nat.pow 2 (-e).toNat)

def ofInt (n : Int) : Double :=
  ofScaled false n 0

/-- The double nearest to `num / den`. -/
def ofQuotient (num : Int) (den : Nat) : Double :=
  nearest (num < 0) num.natAbs den

/-! ## Parts -/

/-- The signed mantissa. -/
def signed (negative : Bool) (mantissa : Nat) : Int :=
  if negative then -(mantissa : Int) else mantissa

/-- The rational number that a finite double stands for. -/
def value : Double → Option Rat
  | .finite negative m e => some (signed negative m * 2 ^ e.toNat / 2 ^ (-e).toNat)
  | _ => none

/-- The largest whole number that is not above the double. -/
def floor? : Double → Option Int
  | .finite negative m e =>
    some ((signed negative m * Nat.pow 2 e.toNat).fdiv (Nat.pow 2 (-e).toNat))
  | _ => none

def isWhole : Double → Bool
  | .finite _ m e => m * Nat.pow 2 e.toNat % Nat.pow 2 (-e).toNat = 0
  | _ => false

/-! ## Arithmetic -/

def neg : Double → Double
  | .finite negative m e => .finite (!negative) m e
  | .infinite negative => .infinite (!negative)
  | .nan => .nan

def add : Double → Double → Double
  | .finite s m e, .finite t n f =>
    let low := min e f
    ofScaled (s && t)
      (signed s m * Int.pow 2 (e - low).toNat + signed t n * Int.pow 2 (f - low).toNat) low
  | .infinite s, .infinite t => if s = t then .infinite s else .nan
  | .infinite s, .finite .. => .infinite s
  | .finite .., .infinite t => .infinite t
  | _, _ => .nan

def sub (x y : Double) : Double :=
  x.add y.neg

def mul : Double → Double → Double
  | .finite s m e, .finite t n f => ofScaled (s != t) (signed s m * signed t n) (e + f)
  | .infinite s, .infinite t => .infinite (s != t)
  | .infinite s, .finite t n _ | .finite t n _, .infinite s =>
    if n = 0 then .nan else .infinite (s != t)
  | _, _ => .nan

/-- The quotient; only divisors other than zero are asked for. -/
def div : Double → Double → Double
  | .finite s m e, .finite t n f =>
    if n = 0 then .nan
    else nearest (s != t) (m * Nat.pow 2 (e - f).toNat) (n * Nat.pow 2 (f - e).toNat)
  | .infinite s, .finite t .. => .infinite (s != t)
  | .finite s .., .infinite t => .finite (s != t) 0 lowestExponent
  | _, _ => .nan

/-! ## Order -/

/-- Order of the real numbers, with `nan` below and above nothing. -/
def compare? : Double → Double → Option Ordering
  | .finite s m e, .finite t n f =>
    let low := min e f
    some (compare (signed s m * Int.pow 2 (e - low).toNat)
      (signed t n * Int.pow 2 (f - low).toNat))
  | .infinite s, .infinite t =>
    some (if s = t then .eq else if s then .lt else .gt)
  | .infinite s, .finite .. => some (if s then .lt else .gt)
  | .finite .., .infinite t => some (if t then .gt else .lt)
  | _, _ => none

/-- The same order against a whole number, which may be beyond every double. -/
def compareInt? : Double → Int → Option Ordering
  | .finite s m e, n =>
    some (compare (signed s m * Int.pow 2 e.toNat) (n * Nat.pow 2 (-e).toNat))
  | .infinite s, _ => some (if s then .lt else .gt)
  | .nan, _ => none

end Double

end FlakeLint
