import InertialOdometry.Decimal.Reading
import InertialOdometry.Geometry.Tensor

/-!
Files of points in text form. A header, which says how many points there are, is followed by a line for
each point; its first three numbers are the coordinates.
-/

namespace InertialOdometry.PointText

variable {α : Type} [Scalar α]

def wordsOf (line : String) : List String :=
  ((line.map fun c => if c == '\t' || c == '\r' then ' ' else c).splitOn " ").filter (· != "")

def count? (words : List String) : Option Nat :=
  match words with
  | ["POINTS", n] | ["element", "vertex", n] => n.toNat?
  | _ => none

def endsHeader (words : List String) : Bool := words == ["DATA", "ascii"] || words == ["end_header"]

def coordinates? (words : List String) : Option (List α) :=
  match words with
  | x :: y :: z :: _ => [x, y, z].mapM fun word => (Decimal.readNumber? word).map Scalar.ofLiteral
  | _ => none

def read? (text : String) : Option (Tensor α) := do
  let lines := (text.splitOn "\n").map wordsOf
  let header := lines.takeWhile fun words => !endsHeader words
  let n ← header.findSome? count?
  let points ← ((lines.drop (header.length + 1)).take n).mapM coordinates?
  if points.isEmpty then none else return ⟨[points.length, 3], points.flatten⟩

end InertialOdometry.PointText
