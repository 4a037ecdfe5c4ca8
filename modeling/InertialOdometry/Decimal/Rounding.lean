/-!
Rounding a quotient of natural numbers to the nearest natural number. A half goes to the even
neighbour, so no direction is favoured when many values are rounded.
-/

namespace InertialOdometry.Decimal

/-- The natural number nearest to `num / den`. Between two equally near ones the even one is
taken. -/
def roundDiv (num den : Nat) : Nat :=
  let q := num / den
  let r := num % den
  if 2 * r < den then q
  else if den < 2 * r then q + 1
  else q + q % 2

/-- The decimal digits of a number, most significant first. -/
def digits (n : Nat) : List Char :=
  Nat.toDigits 10 n

def padZeros (width : Nat) (cs : List Char) : List Char :=
  List.replicate (width - cs.length) '0' ++ cs

def trimZeros (cs : List Char) : List Char :=
  (cs.reverse.dropWhile (· == '0')).reverse

end InertialOdometry.Decimal
