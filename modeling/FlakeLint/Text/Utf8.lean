-- SUMMARY: UTF-8: encoding, and decoding that names or replaces what is broken.
import FlakeLint.Text.Quoted

/-!
# UTF-8

A decoder as a machine that reads one byte at a time. Bytes that form no
character are grouped into maximal broken parts: the longest start of some
well-formed sequence, or else a single byte. A tolerant reader turns each part
into U+FFFD; a strict one stops at the first and says what is wrong with it.
-/

namespace FlakeLint.Utf8

def encode (cs : List Char) : List UInt8 :=
  cs.flatMap String.utf8EncodeChar

/-! ## The machine -/

inductive Reason where
  | startByte
  | continuation
  | endOfData
deriving DecidableEq, Repr

/-- A maximal broken part: where it starts, how many bytes it has, the first of them. -/
structure Broken where
  start : Nat
  length : Nat
  first : UInt8
  reason : Reason
deriving DecidableEq, Repr

inductive Piece where
  | char (c : Char)
  | broken (part : Broken)
deriving DecidableEq, Repr

/-- A character in the making: `more` bytes are missing, the next of them lies in `low..high`,
and `code` holds the bits read so far. -/
structure Pending where
  start : Nat
  first : UInt8
  more : Nat
  low : UInt8
  high : UInt8
  code : Nat
deriving DecidableEq, Repr

/-- What a byte opens: a whole character, a longer sequence, or nothing. The bounds on the second
byte keep out overlong forms, surrogates and numbers above U+10FFFF. -/
def opening (offset : Nat) (b : UInt8) : Sum Piece Pending :=
  let long (more : Nat) (low high : UInt8) (code : Nat) : Sum Piece Pending :=
    .inr ⟨offset, b, more, low, high, code⟩
  if b < 0x80 then .inl (.char (Char.ofNat b.toNat))
  else if b < 0xC2 then .inl (.broken ⟨offset, 1, b, .startByte⟩)
  else if b < 0xE0 then long 1 0x80 0xBF (b.toNat - 0xC0)
  else if b == 0xE0 then long 2 0xA0 0xBF 0
  else if b == 0xED then long 2 0x80 0x9F 0xD
  else if b < 0xF0 then long 2 0x80 0xBF (b.toNat - 0xE0)
  else if b == 0xF0 then long 3 0x90 0xBF 0
  else if b < 0xF4 then long 3 0x80 0xBF (b.toNat - 0xF0)
  else if b == 0xF4 then long 3 0x80 0x8F 4
  else .inl (.broken ⟨offset, 1, b, .startByte⟩)

/-- The pieces of the bytes from `offset` on, with a character possibly under way. -/
def pieces : Option Pending → Nat → List UInt8 → List Piece
  | none, _, [] => []
  | some p, offset, [] => [.broken ⟨p.start, offset - p.start, p.first, .endOfData⟩]
  | none, offset, b :: bs =>
    match opening offset b with
    | .inl piece => piece :: pieces none (offset + 1) bs
    | .inr p => pieces (some p) (offset + 1) bs
  | some p, offset, b :: bs =>
    if p.low ≤ b ∧ b ≤ p.high then
      let code := p.code * 64 + (b.toNat - 0x80)
      if p.more ≤ 1 then .char (Char.ofNat code) :: pieces none (offset + 1) bs
      else pieces (some { p with more := p.more - 1, low := 0x80, high := 0xBF, code }) (offset + 1) bs
    else
      let cut := .broken ⟨p.start, offset - p.start, p.first, .continuation⟩
      match opening offset b with
      | .inl piece => cut :: piece :: pieces none (offset + 1) bs
      | .inr p' => cut :: pieces (some p') (offset + 1) bs

/-! ## The two readers -/

def Piece.toChar : Piece → Char
  | .char c => c
  | .broken _ => '\uFFFD'

/-- Reads every byte; a broken part becomes one replacement character. -/
def decode (bs : List UInt8) : List Char :=
  (pieces none 0 bs).map Piece.toChar

def Piece.broken? : Piece → Option Broken
  | .char _ => none
  | .broken part => some part

/-- Reads well-formed bytes only; otherwise tells the first broken part. -/
def decodeStrict (bs : List UInt8) : Except Broken (List Char) :=
  let all := pieces none 0 bs
  match all.findSome? Piece.broken? with
  | some part => .error part
  | none => .ok (all.map Piece.toChar)

/-! ## Messages -/

def Reason.message : Reason → String
  | .startByte => "invalid start byte"
  | .continuation => "invalid continuation byte"
  | .endOfData => "unexpected end of data"

/-- Says where the broken part is: one byte with its value, or several by their positions. -/
def Broken.message (part : Broken) : String :=
  let place :=
    if part.length = 1 then
      let code := String.ofList (Text.hexDigits 2 part.first.toNat)
      s!"byte 0x{code} in position {part.start}"
    else s!"bytes in position {part.start}-{part.start + part.length - 1}"
  s!"'utf-8' codec can't decode {place}: {part.reason.message}"

end FlakeLint.Utf8
