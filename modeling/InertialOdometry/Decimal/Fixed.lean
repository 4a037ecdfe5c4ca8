import InertialOdometry.Decimal.Binary64

/-!
Decimal text with a given number of places: positional (`12.500`) and scientific (`1.250e+01`).
The digits are those of the exact binary value, rounded once; a half goes to the even digit.
-/

namespace InertialOdometry.Decimal

/-- Puts a point before the last `places` digits. -/
def pointed (places n : Nat) : List Char :=
  let ds := padZeros (places + 1) (digits n)
  if places = 0 then ds
  else ds.take (ds.length - places) ++ '.' :: ds.drop (ds.length - places)

def signed (negative : Bool) (cs : List Char) : List Char :=
  if negative then '-' :: cs else cs

/-- The exponent of a scientific form: a sign and at least two digits. -/
def exponentText (e : Int) : List Char :=
  'e' :: (if e < 0 then '-' else '+') :: padZeros 2 (digits e.natAbs)

/-- The exponent of the leading decimal digit of a positive quotient. -/
def leading (num den : Nat) : Int :=
  if den ≤ num then (digits (num / den)).length - 1
  else -((digits (den / num)).length : Int) + (if den % num = 0 && isPower (den / num) then 1 else 0)
where
  /-- Whether the number is a power of ten. -/
  isPower (n : Nat) : Bool := n == Nat.pow 10 ((digits n).length - 1)

/-- The quotient `num / den` times `10 ^ shift`, rounded. -/
def shifted (num den : Nat) (shift : Int) : Nat :=
  if 0 ≤ shift then roundDiv (num * Nat.pow 10 shift.toNat) den
  else roundDiv num (den * Nat.pow 10 (-shift).toNat)

def scientific (places num den : Nat) : List Char :=
  if num = 0 then pointed places 0 ++ exponentText 0
  else
    let e := leading num den
    let n := shifted num den (places - e)
    if Nat.pow 10 (places + 1) ≤ n then pointed places (n / 10) ++ exponentText (e + 1)
    else pointed places n ++ exponentText e

/-- Applies a rule for finite magnitudes to a number; infinities and values that are no number
have texts of their own. -/
def render (finite : Nat → Nat → List Char) (x : Float) : List Char :=
  match Binary64.ofFloat x with
  | .notANumber => ['n', 'a', 'n']
  | .infinite negative => signed negative ['i', 'n', 'f']
  | .finite negative mantissa exponent _ =>
    let (num, den) := fraction mantissa exponent
    signed negative (finite num den)

def fixedText (places : Nat) (x : Float) : String :=
  .ofList (render (fun num den => pointed places (roundDiv (num * Nat.pow 10 places) den)) x)

def signedText (places : Nat) (x : Float) : String :=
  let s := fixedText places x
  if s.startsWith "-" then s else "+" ++ s

def scientificText (places : Nat) (x : Float) : String :=
  .ofList (render (scientific places) x)

end InertialOdometry.Decimal
