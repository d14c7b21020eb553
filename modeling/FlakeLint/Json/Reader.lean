-- SUMMARY: Reading a JSON document.
import FlakeLint.Json.Value
import FlakeLint.Text.Digits
import FlakeLint.Text.Words

/-!
# Reading JSON

A strict reader with three ways out: the text is malformed, it nests deeper than
the reader goes, or it holds a whole number with too many digits. Whichever comes
first in the text decides. The words for infinities and for no number are
accepted as numbers; of a repeated key the first place and the last value count.
-/

namespace FlakeLint.Json

open FlakeLint.Text

inductive Refusal where
  | malformed
  | tooDeep (nest : Nest)
  | tooLong (digits : Nat)
deriving DecidableEq, Repr

abbrev Read (α : Type) := Except Refusal (α × List Char)

def isGap (c : Char) : Bool :=
  c == ' ' || c == '\t' || c == '\n' || c == '\r'

def skipGap (cs : List Char) : List Char :=
  cs.dropWhile isGap

/-! ## Text -/

def hexValue? (cs : List Char) : Option Nat :=
  cs.foldlM (fun value c =>
    (baseDigit? c).bind fun d => if d < 16 then some (value * 16 + d) else none) 0

/-- The character that a one-letter escape stands for. -/
def simpleEscape? (c : Char) : Option Char :=
  match c with
  | '"' => some '"'
  | '\\' => some '\\'
  | '/' => some '/'
  | 'b' => some '\x08'
  | 'f' => some '\x0C'
  | 'n' => some '\n'
  | 'r' => some '\r'
  | 't' => some '\t'
  | _ => none

/-- Reads up to the closing quote; `done` holds the units of what came before, last first. -/
def readText (done : List UInt16) : List Char → Read Utf16
  | [] => .error .malformed
  | '"' :: rest => .ok (⟨done.reverse⟩, rest)
  | '\\' :: 'u' :: a :: b :: c :: d :: rest =>
    match hexValue? [a, b, c, d] with
    | some n => readText (UInt16.ofNat n :: done) rest
    | none => .error .malformed
  | '\\' :: c :: rest =>
    match simpleEscape? c with
    | some e => readText ((Utf16.unitsOf e).reverse ++ done) rest
    | none => .error .malformed
  | c :: rest =>
    if c.toNat < 0x20 || c == '\\' then .error .malformed
    else readText ((Utf16.unitsOf c).reverse ++ done) rest

/-! ## Numbers -/

/-- The digits before the point: a lone zero, or digits that do not start with zero. -/
def wholePart (cs : List Char) : Option (List Char × List Char) :=
  match cs with
  | '0' :: rest => some (['0'], rest)
  | c :: _ => if c.isDigit then some (cs.takeWhile Char.isDigit, cs.dropWhile Char.isDigit) else none
  | [] => none

/-- The digits after a point, if a point and a digit come next. -/
def fractionPart (cs : List Char) : Option (List Char × List Char) :=
  match cs with
  | '.' :: rest =>
    let digits := rest.takeWhile Char.isDigit
    if digits.isEmpty then none else some (digits, rest.dropWhile Char.isDigit)
  | _ => none

def digitsValue (cs : List Char) : Nat :=
  cs.foldl (fun value c => value * 10 + (c.toNat - 0x30)) 0

def exponentSign : List Char → Bool × List Char
  | '-' :: cs => (true, cs)
  | '+' :: cs => (false, cs)
  | cs => (false, cs)

/-- The exponent, if a letter `e` and a number come next. -/
def exponentPart (cs : List Char) : Option (Int × List Char) :=
  match cs with
  | c :: rest =>
    if c == 'e' || c == 'E' then
      let (negative, rest) := exponentSign rest
      let digits := rest.takeWhile Char.isDigit
      if digits.isEmpty then none
      else
        let n : Int := digitsValue digits
        some (if negative then -n else n, rest.dropWhile Char.isDigit)
    else none
  | [] => none

def readUnsigned (negative : Bool) (cs : List Char) : Read Number :=
  match wholePart cs with
  | none => .error .malformed
  | some (whole, rest) =>
    let fraction := fractionPart rest
    let rest := (fraction.map Prod.snd).getD rest
    let exponent := exponentPart rest
    let rest := (exponent.map Prod.snd).getD rest
    if fraction.isNone && exponent.isNone then
      if digitLimit < whole.length then .error (.tooLong whole.length)
      else
        let n : Int := digitsValue whole
        .ok (.int (if negative then -n else n), rest)
    else
      let after := (fraction.map Prod.fst).getD []
      let power := (exponent.map Prod.fst).getD 0 - after.length
      .ok (.real (Double.ofDecimal negative (digitsValue (whole ++ after)) power), rest)

/-- The words that a value may be besides text, lists, tables and plain numbers. -/
def words : List (String × Json) := [
  ("null", .null), ("true", .bool true), ("false", .bool false),
  ("NaN", .number (.real .nan)), ("Infinity", .number (.real (.infinite false))),
  ("-Infinity", .number (.real (.infinite true)))]

def readScalar (cs : List Char) : Read Json :=
  match words.findSome? fun word => (afterPrefix word.1.toList cs).map fun rest => (word.2, rest) with
  | some found => .ok found
  | none =>
    match cs with
    | '-' :: rest => (readUnsigned true rest).map fun found => (.number found.1, found.2)
    | _ => (readUnsigned false cs).map fun found => (.number found.1, found.2)

/-! ## Values -/

mutual
/-- Reads one value that may nest `depth` levels; `fuel` bounds the number of steps. -/
def readValue (fuel depth : Nat) (cs : List Char) : Read Json :=
  match fuel with
  | 0 => .error .malformed
  | fuel + 1 =>
    match cs with
    | '"' :: rest => (readText [] rest).map fun found => (.text found.1, found.2)
    | '[' :: rest =>
      match depth with
      | 0 => .error (.tooDeep .list)
      | depth + 1 =>
        match skipGap rest with
        | ']' :: rest => .ok (.list [], rest)
        | rest => readItems fuel depth [] rest
    | '{' :: rest =>
      match depth with
      | 0 => .error (.tooDeep .table)
      | depth + 1 =>
        match skipGap rest with
        | '}' :: rest => .ok (.table [], rest)
        | rest => readEntries fuel depth [] rest
    | _ => readScalar cs

/-- Reads the items of a list from its first one on; `done` holds earlier ones, last first. -/
def readItems (fuel depth : Nat) (done : List Json) (cs : List Char) : Read Json :=
  match fuel with
  | 0 => .error .malformed
  | fuel + 1 =>
    match readValue fuel depth cs with
    | .error refusal => .error refusal
    | .ok (item, rest) =>
      match skipGap rest with
      | ',' :: rest => readItems fuel depth (item :: done) (skipGap rest)
      | ']' :: rest => .ok (.list (item :: done).reverse, rest)
      | _ => .error .malformed

/-- Reads the entries of a table from its first key on; `done` holds earlier ones, last first. -/
def readEntries (fuel depth : Nat) (done : List (Utf16 × Json)) (cs : List Char) : Read Json :=
  match fuel with
  | 0 => .error .malformed
  | fuel + 1 =>
    match cs with
    | '"' :: rest =>
      match readText [] rest with
      | .error refusal => .error refusal
      | .ok (key, rest) =>
        match skipGap rest with
        | ':' :: rest =>
          match readValue fuel depth (skipGap rest) with
          | .error refusal => .error refusal
          | .ok (value, rest) =>
            match skipGap rest with
            | ',' :: rest => readEntries fuel depth ((key, value) :: done) (skipGap rest)
            | '}' :: rest => .ok (.table (Table.ofList ((key, value) :: done).reverse), rest)
            | _ => .error .malformed
        | _ => .error .malformed
    | _ => .error .malformed
end

/-- Steps that are enough for any text: two per character, for a value and for the list around it. -/
def enoughFuel (cs : List Char) : Nat :=
  2 * cs.length + 2

/-- Reads a document that may nest `depth` levels: one value with nothing but gaps around it. -/
def parseWithin (depth : Nat) (cs : List Char) : Except Refusal Json := do
  let (value, rest) ← readValue (enoughFuel cs) depth (skipGap cs)
  if (skipGap rest).isEmpty then return value else throw .malformed

end FlakeLint.Json
