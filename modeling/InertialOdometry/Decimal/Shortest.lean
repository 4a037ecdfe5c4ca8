import InertialOdometry.Decimal.Fixed

/-!
The shortest decimal text of a double: the fewest digits that lie within its rounding interval,
and of those the ones nearest to it. Texts are positional from `0.0001` up to `10 ^ 16` and
scientific outside, and a whole number keeps a final `.0`.
-/

namespace InertialOdometry.Decimal

/-- The reals that round to a positive double, as three numerators over one denominator. The ends
belong to the interval exactly when the mantissa is even. -/
structure Interval where
  low : Nat
  value : Nat
  high : Nat
  den : Nat
  closed : Bool

namespace Interval

/-- The rounding interval of `mantissa · 2 ^ exponent`, in quarters of a unit. -/
def ofBinary (mantissa : Nat) (exponent : Int) (halved : Bool) : Interval :=
  let (unit, den) := fraction 1 exponent
  { low := (4 * mantissa - (if halved then 1 else 2)) * unit
    value := 4 * mantissa * unit
    high := (4 * mantissa + 2) * unit
    den := 4 * den
    closed := mantissa % 2 == 0 }

/-- Whether `n · 10 ^ scale` rounds to the double. -/
def holds (i : Interval) (n : Nat) (scale : Int) : Bool :=
  let (point, low, high) :=
    if 0 ≤ scale then (n * Nat.pow 10 scale.toNat * i.den, i.low, i.high)
    else (n * i.den, i.low * Nat.pow 10 (-scale).toNat, i.high * Nat.pow 10 (-scale).toNat)
  if i.closed then decide (low ≤ point) && decide (point ≤ high)
  else decide (low < point) && decide (point < high)

/-- Of the two grid points around the value, those with the given number of digits, the nearest
one that rounds to the double, with its scale. -/
def onGrid (i : Interval) (top : Int) (count : Nat) : Option (Nat × Int) :=
  let scale := top + 1 - count
  let (num, den) :=
    if 0 ≤ scale then (i.value, i.den * Nat.pow 10 scale.toNat)
    else (i.value * Nat.pow 10 (-scale).toNat, i.den)
  let below := num / den
  let first := roundDiv num den
  let second := if first = below then below + 1 else below
  if i.holds first scale then some (first, scale)
  else if i.holds second scale then some (second, scale)
  else none

/-- The first grid, from one digit up to seventeen, with a point that rounds to the double. -/
def shortest (i : Interval) : Nat × Int :=
  let top := leading i.value i.den
  ((List.range 17).findSome? fun k => i.onGrid top (k + 1)).getD
    (shifted i.value i.den (16 - top), top - 16)

end Interval

/-- Sets decimal digits with the leading one at `10 ^ top`: positional for moderate magnitudes,
scientific for the others. -/
def layOut (ds : List Char) (top : Int) : List Char :=
  if top < -4 || 16 ≤ top then
    match ds with
    | [] => []
    | [d] => d :: exponentText top
    | d :: rest => d :: '.' :: rest ++ exponentText top
  else if top < 0 then
    '0' :: '.' :: List.replicate (-top - 1).toNat '0' ++ ds
  else
    let whole := top.toNat + 1
    let behind := ds.drop whole
    ds.take whole ++ List.replicate (whole - ds.length) '0' ++
      '.' :: (if behind.isEmpty then ['0'] else behind)

def shortestMagnitude (mantissa : Nat) (exponent : Int) (halved : Bool) : List Char :=
  if mantissa = 0 then ['0', '.', '0']
  else
    let (n, scale) := (Interval.ofBinary mantissa exponent halved).shortest
    let ds := digits n
    layOut (trimZeros ds) (scale + ds.length - 1)

/-- The shortest text that reads back as the same number. -/
def shortestText (x : Float) : String :=
  .ofList <|
    match Binary64.ofFloat x with
    | .notANumber => ['n', 'a', 'n']
    | .infinite negative => signed negative ['i', 'n', 'f']
    | .finite negative mantissa exponent halved =>
      signed negative (shortestMagnitude mantissa exponent halved)

end InertialOdometry.Decimal
