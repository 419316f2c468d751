/-! # The range of double precision

Whether a decimal number rounds to a finite double can be said in whole numbers: the bound is
halfway between the largest finite double and the power of two above it.
-/
namespace CaptureAudit

/-- Nearest number with at most 53 significant bits; a tie goes to the even neighbour. -/
def roundTo53Bits (n : Nat) : Nat :=
  let unit := Nat.pow 2 (n.log2 + 1 - 53)
  let quotient := n / unit
  let twice := 2 * (n % unit)
  if twice > unit || (twice == unit && quotient % 2 == 1) then (quotient + 1) * unit
  else quotient * unit

/-- The least real that rounds to infinity. -/
def doubleOverflow : Nat := (Nat.pow 2 54 - 1) * Nat.pow 2 970

/-- Whether `significand * 10 ^ exponent` rounds to a finite double. Numbers far from the bound
are told by their length, so no large power is ever computed. -/
def roundsToFinite (significand : Nat) (exponent : Int) : Bool :=
  let magnitude := (Nat.toDigits 10 significand).length + exponent
  if significand = 0 || magnitude ≤ 308 then true
  else if magnitude > 309 then false
  else significand * Nat.pow 10 exponent.toNat < doubleOverflow * Nat.pow 10 (-exponent).toNat

end CaptureAudit
