import InertialOdometry.Failure

/-!
The cells of a table as numbers and truth values. Which of these a cell is taken for is decided for
whole columns, in `Table.Column`.
-/

namespace InertialOdometry.Table

def missingWords : List String :=
  ["", "#N/A", "#N/A N/A", "#NA", "-1.#IND", "-1.#QNAN", "-NaN", "-nan", "1.#IND", "1.#QNAN", "<NA>",
    "N/A", "NA", "NULL", "NaN", "None", "n/a", "nan", "null"]

def isMissing (cell : String) : Bool := missingWords.contains cell

def isPadding (c : Char) : Bool := c == ' ' || (9 ≤ c.toNat && c.toNat ≤ 13)

/-- A cell read as a whole number: its sign, its digits if it has any, and whether something else follows
them. -/
structure WholeText where
  negative : Bool
  digits : Option Nat
  junk : Bool

def WholeText.ofCell (cell : String) : WholeText :=
  let (negative, cs) := Decimal.splitSign (cell.toList.dropWhile isPadding)
  let ds := cs.takeWhile Char.isDigit
  ⟨negative, if ds.isEmpty then none else some (Decimal.ofDigits ds),
    !(cs.dropWhile Char.isDigit).all isPadding⟩

namespace WholeText

def value? (w : WholeText) : Option Int := do
  let n ← w.digits
  if w.junk then none else return if w.negative then -(n : Int) else n

/-- Whether the digits go beyond the numbers with sixty-four bits, one of them for the sign. -/
def isWide (w : WholeText) : Bool :=
  w.digits.any fun n => decide ((if w.negative then Nat.pow 2 63 else Nat.pow 2 63 - 1) < n)

def isTooWide (w : WholeText) : Bool := !w.negative && w.digits.any fun n => decide (Nat.pow 2 64 ≤ n)

end WholeText

variable {α : Type} [Scalar α]

/-- The digits that count for a fraction; further ones only move the point. -/
def significantDigits : Nat := 17

def appendDigits (x : α) (ds : List Char) : α :=
  ds.foldl (fun x d => x * Scalar.nat 10 + Scalar.nat (d.toNat - '0'.toNat)) x

/-- Moves the point of a number. What gets too large is no number of a table. -/
def movePoint (x : α) (exponent : Int) : Option α :=
  let power (n : Nat) : α := Scalar.decimal 1 n
  if 308 < exponent then none
  else if 0 < exponent then some (x * power exponent.toNat)
  else if exponent < -616 then some Scalar.zero
  else if exponent < -308 then some (x / power (-308 - exponent).toNat / power 308)
  else some (x / power (-exponent).toNat)

/-- An exponent, with what follows it. A mark without digits is none. -/
def exponentOf (cs : List Char) : Option (Int × List Char) :=
  match cs with
  | [] => some (0, [])
  | c :: rest =>
    if c == 'e' || c == 'E' then
      let (negative, rest) := Decimal.splitSign rest
      let ds := (rest.takeWhile Char.isDigit).take significantDigits
      let n : Int := Decimal.ofDigits ds
      if ds.isEmpty then none else some (if negative then -n else n, rest.drop ds.length)
    else some (0, c :: rest)

def infinity? (cell : String) : Option α :=
  match (cell.map Char.toLower) with
  | "inf" | "+inf" | "infinity" | "+infinity" => some Scalar.infinity
  | "-inf" | "-infinity" => some (-Scalar.infinity)
  | _ => none

/-- A number with a possible fraction and exponent, and padding around it. Its digits are appended one by
one and the point is moved at the end, so long numbers may be rounded more than once. -/
def decimal? (cell : String) : Option α := do
  let (negative, cs) := Decimal.splitSign (cell.toList.dropWhile isPadding)
  let lead := cs.takeWhile Char.isDigit
  let rest := cs.dropWhile Char.isDigit
  let (behind, rest) :=
    match rest with
    | '.' :: rest => (rest.takeWhile Char.isDigit, rest.dropWhile Char.isDigit)
    | rest => ([], rest)
  let used := lead.take significantDigits
  let usedBehind := behind.take (significantDigits - used.length)
  if used.isEmpty && usedBehind.isEmpty then none
  else
    let x := appendDigits (appendDigits Scalar.zero used) usedBehind
    let x := if negative then -x else x
    let (exponent, rest) ← exponentOf rest
    let x ← movePoint x (exponent + (lead.length - used.length : Nat) - usedBehind.length)
    if Scalar.isFinite x && rest.all isPadding then some x else none

def number? (cell : String) : Option α := (decimal? cell).or (infinity? cell)

def truth? (cell : String) : Option Bool :=
  if ["True", "TRUE", "true"].contains cell then some true
  else if ["False", "FALSE", "false"].contains cell then some false
  else none

end InertialOdometry.Table
