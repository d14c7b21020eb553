-- SUMMARY: Reading numerals: whole numbers with a base prefix, and decimal fractions.
import FlakeLint.Number.Basic
import FlakeLint.Text.Blank
import FlakeLint.Text.Digits
import FlakeLint.Text.Words

/-!
# Numerals

How the text of a numeric literal gets its value. A whole number may carry a
sign and a prefix for base 16, 8 or 2; a plain decimal one has no leading zeros
unless it is zero, and a limited number of digits. What is no whole number may
be a decimal fraction, an exponent form or one of the words for infinity and
for no number; a fraction without remainder counts as a whole number.
-/

namespace FlakeLint.Numeral

open FlakeLint.Text

/-! ## Characters -/

/-- Brings a character into ASCII if it is a digit or white space of another script. In a text of
ASCII characters alone nothing changes. -/
def plainChar (c : Char) : Char :=
  if c.toNat < 0x80 then c
  else if isBlank c then ' '
  else match decimalDigit? c with
    | some d => Char.ofNat (0x30 + d)
    | none => c

/-- White space that may surround a numeral. -/
def isMargin (c : Char) : Bool :=
  c == ' ' || (0x09 ≤ c.toNat && c.toNat ≤ 0x0D)

def normalize (cs : List Char) : List Char :=
  stripBy isMargin (cs.map plainChar)

/-- Cuts off a sign; true stands for minus. -/
def splitSign : List Char → Bool × List Char
  | '-' :: cs => (true, cs)
  | '+' :: cs => (false, cs)
  | cs => (false, cs)

/-! ## Whole numbers -/

/-- The value of digits of a base, most significant first; none if another character occurs. -/
def ofDigits? (base : Nat) (cs : List Char) : Option Nat :=
  cs.foldlM (fun value c =>
    (baseDigit? c).bind fun d => if d < base then some (value * base + d) else none) 0

/-- Cuts off the prefix of a base; a plain numeral has base ten. -/
def splitBase : List Char → Nat × List Char
  | '0' :: c :: cs =>
    if c == 'x' || c == 'X' then (16, cs)
    else if c == 'o' || c == 'O' then (8, cs)
    else if c == 'b' || c == 'B' then (2, cs)
    else (10, '0' :: c :: cs)
  | cs => (10, cs)

/-- A decimal whole number: zeros only, or a first digit other than zero; not longer than numbers
are ever read. -/
def plainWhole? (cs : List Char) : Option Nat :=
  if digitLimit < cs.length then none
  else if cs.head? == some '0' && cs.any (· != '0') then none
  else ofDigits? 10 cs

def whole? (cs : List Char) : Option Int :=
  let (negative, unsigned) := splitSign cs
  let (base, digits) := splitBase unsigned
  if digits.isEmpty then none
  else
    let value := if base == 10 then plainWhole? digits else ofDigits? base digits
    value.map fun n => if negative then -(n : Int) else n

/-! ## Fractions -/

/-- The exponent part `e±digits`, or nothing at all. -/
def exponent? : List Char → Option Int
  | [] => some 0
  | c :: cs =>
    if c == 'e' || c == 'E' then
      let (negative, digits) := splitSign cs
      if digits.isEmpty then none
      else (ofDigits? 10 digits).map fun n => if negative then -(n : Int) else n
    else none

/-- A decimal fraction: digits on at least one side of an optional point, then an exponent. -/
def decimal? (negative : Bool) (cs : List Char) : Option Double :=
  let whole := cs.takeWhile Char.isDigit
  let rest := cs.dropWhile Char.isDigit
  let (fraction, rest) := match rest with
    | '.' :: more => (more.takeWhile Char.isDigit, more.dropWhile Char.isDigit)
    | _ => ([], rest)
  if whole.isEmpty && fraction.isEmpty then none
  else do
    let exponent ← exponent? rest
    let digits ← ofDigits? 10 (whole ++ fraction)
    return Double.ofDecimal negative digits (exponent - fraction.length)

/-- Infinity or no number, spelled out in letters of any case. -/
def word? (negative : Bool) (cs : List Char) : Option Double :=
  let small := String.ofList (cs.map Char.toLower)
  if small == "inf" || small == "infinity" then some (.infinite negative)
  else if small == "nan" then some .nan
  else none

def fraction? (cs : List Char) : Option Double :=
  let (negative, unsigned) := splitSign cs
  (decimal? negative unsigned).or (word? negative unsigned)

/-! ## Literals -/

/-- The value of a numeric literal; underscores between its characters mean nothing. -/
def value? (text : String) : Option Number :=
  let cs := normalize (text.toList.filter (· != '_'))
  match whole? cs with
  | some n => some (.int n)
  | none => (fraction? cs).map Number.ofDouble

end FlakeLint.Numeral
