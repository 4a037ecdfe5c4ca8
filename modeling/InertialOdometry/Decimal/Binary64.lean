import InertialOdometry.Decimal.Rounding

/-!
Double precision numbers as exact binary fractions, in both directions: `Binary64.ofFloat` takes
a number apart, `nearest` finds the number closest to a quotient of naturals.
-/

namespace InertialOdometry.Decimal

/-- What a double precision number is: a sign with a magnitude `mantissa · 2 ^ exponent`, an
infinity, or no number at all. `halved` tells that the next smaller magnitude is only half as far
away as the next larger one. -/
inductive Binary64 where
  | finite (negative : Bool) (mantissa : Nat) (exponent : Int) (halved : Bool)
  | infinite (negative : Bool)
  | notANumber

namespace Binary64

def ofBits (bits : Nat) : Binary64 :=
  let negative := decide (Nat.pow 2 63 ≤ bits)
  let field : Nat := bits / Nat.pow 2 52 % Nat.pow 2 11
  let fraction : Nat := bits % Nat.pow 2 52
  if field = 2047 then
    if fraction = 0 then .infinite negative else .notANumber
  else if field = 0 then .finite negative fraction (-1074) false
  else .finite negative (Nat.pow 2 52 + fraction) ((field : Int) - 1075) (fraction == 0 && field != 1)

def ofFloat (x : Float) : Binary64 :=
  ofBits x.toBits.toNat

end Binary64

/-- A nonnegative binary fraction `mantissa · 2 ^ exponent` as numerator and denominator. -/
def fraction (mantissa : Nat) (exponent : Int) : Nat × Nat :=
  if 0 ≤ exponent then (mantissa * Nat.pow 2 exponent.toNat, 1)
  else (mantissa, Nat.pow 2 (-exponent).toNat)

/-- The quotient `num / den` measured in units of `2 ^ exponent`, rounded. -/
def inUnits (num den : Nat) (exponent : Int) : Nat :=
  if 0 ≤ exponent then roundDiv num (den * Nat.pow 2 exponent.toNat)
  else roundDiv (num * Nat.pow 2 (-exponent).toNat) den

/-- Whether the quotient `num / den` is at least `2 ^ exponent`. -/
def reaches (num den : Nat) (exponent : Int) : Bool :=
  if 0 ≤ exponent then decide (den * Nat.pow 2 exponent.toNat ≤ num)
  else decide (den ≤ num * Nat.pow 2 (-exponent).toNat)

/-- The exponent of the leading binary digit of a positive quotient. -/
def leadingBit (num den : Nat) : Int :=
  let guess : Int := (Nat.log2 num : Int) - Nat.log2 den
  if reaches num den guess then guess else guess - 1

/-- The bits of the nonnegative double nearest to `num / den`; a half goes to the even mantissa,
and what lies beyond the largest double becomes infinity. The unit is chosen so that the mantissa
has 53 bits before it is rounded, unless that would go below the smallest unit. -/
def nearestBits (num den : Nat) : Nat :=
  if num = 0 then 0
  else
    let exponent := max (leadingBit num den - 52) (-1074)
    let mantissa := inUnits num den exponent
    let (mantissa, exponent) :=
      if Nat.pow 2 53 ≤ mantissa then (mantissa / 2, exponent + 1) else (mantissa, exponent)
    if mantissa < Nat.pow 2 52 then mantissa
    else if 971 < exponent then 2047 * Nat.pow 2 52
    else (exponent + 1075).toNat * Nat.pow 2 52 + (mantissa - Nat.pow 2 52)

/-- The double nearest to `digits · 10 ^ scale`. Far outside the range of doubles the answer is
known without computing the power. -/
def nearest (digits : Nat) (scale : Int) : Float :=
  let length : Int := (Decimal.digits digits).length
  if digits = 0 || length + scale < -400 then 0.0
  else if 400 < length + scale then 1.0 / 0.0
  else if 0 ≤ scale then Float.ofBits (UInt64.ofNat (nearestBits (digits * Nat.pow 10 scale.toNat) 1))
  else Float.ofBits (UInt64.ofNat (nearestBits digits (Nat.pow 10 (-scale).toNat)))

end InertialOdometry.Decimal
