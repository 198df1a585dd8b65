/-!
# Decimal fractions as binary64 numbers

A JSON number with a fraction or an exponent denotes the nearest binary64
number, ties to even, and an infinity beyond the largest finite one.  The
nearest number is found in exact arithmetic on natural numbers.
-/

namespace ImportRepair

/-- The values of the binary64 format; `finite m q` is `m * 2 ^ q`. -/
inductive Binary64 where
  | nan
  | infinite (negative : Bool)
  | finite (mantissa : Int) (exponent : Int)
deriving DecidableEq, Repr

/-- The quotient rounded to the nearest integer, ties to even. -/
def roundDiv (num den : Nat) : Nat :=
  let q := num / den
  let r := num % den
  if 2 * r < den then q else if den < 2 * r then q + 1 else q + q % 2

namespace Binary64

/-- The fraction `num / den` divided by `2 ^ q` and rounded. -/
def scaled (num den : Nat) (q : Int) : Nat :=
  roundDiv (num * Nat.pow 2 (-q).toNat) (den * Nat.pow 2 q.toNat)

/-- The value nearest to `num / den`. -/
def ofFraction (negative : Bool) (num den : Nat) : Binary64 :=
  let sign (m : Nat) : Int := if negative then -(m : Int) else m
  let low := (num.log2 : Int) - den.log2 - 53
  let q := max (if Nat.pow 2 53 ≤ scaled num den low then low + 1 else low) (-1074)
  let m := scaled num den q
  if Nat.pow 2 1024 ≤ m * Nat.pow 2 q.toNat then .infinite negative else .finite (sign m) q

/-- The value nearest to `digits * 10 ^ exponent`. -/
def ofDecimal (negative : Bool) (digits : Nat) (exponent : Int) : Binary64 :=
  let size := (Nat.toDigits 10 digits).length + exponent
  if digits = 0 || size < -330 then .finite 0 0
  else if 310 < size then .infinite negative
  else ofFraction negative (digits * Nat.pow 10 exponent.toNat) (Nat.pow 10 (-exponent).toNat)

def isZero : Binary64 → Bool
  | finite 0 _ => true
  | _ => false

/-- The integer part of a finite value. -/
def truncate? : Binary64 → Option Int
  | finite m q => some (Int.tdiv (m * Nat.pow 2 q.toNat) (Nat.pow 2 (-q).toNat))
  | _ => none

end Binary64

end ImportRepair
