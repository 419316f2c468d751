import CaptureAudit.Document
import CaptureAudit.DoublePrecision
import CaptureAudit.Json.Fault

/-! # Number literals

A literal is read one character at a time. Integers within 64 bits are kept exactly; for any
other number only one question is left, whether it exceeds the double precision range.
The answer needs no floating point: significand and power of ten are rounded to 53 bits and
their product is compared with the bound of the range.
-/
namespace CaptureAudit.Json

structure Decimal where
  significand : Nat
  shift : Int
  deriving DecidableEq, Repr

namespace Decimal

def maxSignificand : Nat := Nat.pow 2 64 - 1

def push? (significand digit : Nat) : Option Nat :=
  let wider := 10 * significand + digit
  if wider ≤ maxSignificand then some wider else none

/-- Scaling down never fails: what is too small becomes zero. -/
def inRange (d : Decimal) : Bool :=
  d.significand == 0 || d.shift < 0 ||
    (d.shift ≤ 308 &&
      roundTo53Bits d.significand * roundTo53Bits (Nat.pow 10 d.shift.toNat) < doubleOverflow)

def raise (d : Decimal) (down : Bool) (exponent : Nat) : Decimal :=
  { d with shift := if down then d.shift - exponent else d.shift + exponent }

/-- Any decimal that is in range is a float, whatever its value. -/
def toDocument (d : Decimal) : Except Cause Document :=
  if d.inRange then .ok .float else .error .numberOutOfRange

end Decimal

def maxExponent : Nat := Nat.pow 2 31 - 1

inductive Number where
  | minus
  /-- A single leading zero, which no digit may follow. -/
  | zero (negative : Bool)
  | integer (negative : Bool) (value : Nat)
  /-- Integer digits after the significand is full; each one scales it up. -/
  | wideInteger (d : Decimal)
  | point (d : Decimal)
  | fraction (d : Decimal)
  /-- Fraction digits after the significand is full, which change nothing. -/
  | idleFraction (d : Decimal)
  | mark (d : Decimal)
  | markSign (d : Decimal) (down : Bool)
  | exponent (d : Decimal) (down : Bool) (value : Nat)
  /-- The exponent is too large to keep, but the number is zero all the same. -/
  | vanishing
  deriving DecidableEq, Repr

def digitValue? (c : Char) : Option Nat :=
  if c.isDigit then some (c.toNat - '0'.toNat) else none

namespace Number

def start? (c : Char) : Option Number :=
  if c = '-' then some minus
  else match digitValue? c with
    | none => none
    | some 0 => some (zero false)
    | some d => some (integer false d)

def afterInteger (d : Decimal) (c : Char) : Option Number :=
  if c = '.' then some (point d)
  else if c = 'e' || c = 'E' then some (mark d)
  else none

def afterFraction (d : Decimal) (c : Char) : Option Number :=
  if c = 'e' || c = 'E' then some (mark d) else none

def pushFraction (d : Decimal) (digit : Nat) : Number :=
  match Decimal.push? d.significand digit with
  | some wider => fraction ⟨wider, d.shift - 1⟩
  | none => idleFraction d

def pushExponent (d : Decimal) (down : Bool) (value digit : Nat) : Except Cause Number :=
  let wider := 10 * value + digit
  if wider ≤ maxExponent then .ok (exponent d down wider)
  else if d.significand == 0 || down then .ok vanishing
  else .error .numberOutOfRange

/-- Reads one more character; `none` if the literal ended before it. -/
def feed? (number : Number) (c : Char) : Option (Except Cause Number) :=
  match number, digitValue? c with
  | minus, some 0 => some (.ok (zero true))
  | minus, some d => some (.ok (integer true d))
  | minus, none => some (.error .invalidNumber)
  | zero _, some _ => some (.error .invalidNumber)
  | zero _, none => (afterInteger ⟨0, 0⟩ c).map .ok
  | integer negative value, some d =>
    match Decimal.push? value d with
    | some wider => some (.ok (integer negative wider))
    | none => some (.ok (wideInteger ⟨value, 1⟩))
  | integer _ value, none => (afterInteger ⟨value, 0⟩ c).map .ok
  | wideInteger d, some _ => some (.ok (wideInteger ⟨d.significand, d.shift + 1⟩))
  | wideInteger d, none => (afterInteger d c).map .ok
  | point d, some digit => some (.ok (pushFraction d digit))
  | point _, none => some (.error .invalidNumber)
  | fraction d, some digit => some (.ok (pushFraction d digit))
  | fraction d, none => (afterFraction d c).map .ok
  | idleFraction d, some _ => some (.ok (idleFraction d))
  | idleFraction d, none => (afterFraction d c).map .ok
  | mark d, some digit => some (.ok (exponent d false digit))
  | mark d, none =>
    if c = '+' then some (.ok (markSign d false))
    else if c = '-' then some (.ok (markSign d true))
    else some (.error .invalidNumber)
  | markSign d down, some digit => some (.ok (exponent d down digit))
  | markSign _ _, none => some (.error .invalidNumber)
  | exponent d down value, some digit => some (pushExponent d down value digit)
  | exponent _ _ _, none => none
  | vanishing, some _ => some (.ok vanishing)
  | vanishing, none => none

/-- Integers outside `[-2 ^ 63, 2 ^ 64 - 1]`, and minus zero, are floats. -/
def integerDocument (negative : Bool) (value : Nat) : Document :=
  if !negative then .integer value
  else if value = 0 || value > Nat.pow 2 63 then .float
  else .integer (-(value : Int))

def finish : Number → Except Cause Document
  | minus | point _ | mark _ | markSign _ _ => .error .endOfValue
  | zero negative => .ok (integerDocument negative 0)
  | integer negative value => .ok (integerDocument negative value)
  | wideInteger d | fraction d | idleFraction d => d.toDocument
  | exponent d down value => (d.raise down value).toDocument
  | vanishing => .ok .float

end Number

end CaptureAudit.Json
