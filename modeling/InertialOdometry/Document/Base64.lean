/-!
Bytes as text of sixty-four characters: four characters hold three bytes, and equal signs fill up the
last four.
-/

namespace InertialOdometry.Document

def base64Alphabet : List Char :=
  "ABCDEFGHIJKLMNOPQRSTUVWXYZabcdefghijklmnopqrstuvwxyz0123456789+/".toList

def base64Char (n : Nat) : Char := base64Alphabet.getD n 'A'

def encode64 : List Nat → List Char
  | [] => []
  | [a] => [base64Char (a / 4), base64Char (a % 4 * 16), '=', '=']
  | [a, b] => [base64Char (a / 4), base64Char (a % 4 * 16 + b / 16), base64Char (b % 16 * 4), '=']
  | a :: b :: c :: rest =>
    base64Char (a / 4) :: base64Char (a % 4 * 16 + b / 16) :: base64Char (b % 16 * 4 + c / 64) ::
      base64Char (c % 64) :: encode64 rest

/-- The text of a row of bytes in lines for up to fifty-seven of them, each closed by a line feed. -/
def encodeLines (fuel : Nat) (bytes : List Nat) : List Char :=
  match fuel, bytes with
  | 0, _ | _, [] => []
  | fuel + 1, bytes => encode64 (bytes.take 57) ++ '\n' :: encodeLines fuel (bytes.drop 57)

/-- The bytes of a row of values of characters. A single value left over belongs to no byte. -/
def bytesOfSextets : List Nat → Option (List Nat)
  | [] => some []
  | [_] => none
  | [a, b] => some [a * 4 + b / 16]
  | [a, b, c] => some [a * 4 + b / 16, b % 16 * 16 + c / 4]
  | a :: b :: c :: d :: rest =>
    (bytesOfSextets rest).map fun bytes =>
      (a * 4 + b / 16) :: (b % 16 * 16 + c / 4) :: (c % 4 * 64 + d) :: bytes

/-- The bytes of a text. Characters outside the alphabet are passed over; the equal signs have to fill up
the last four characters. -/
def decode64 (cs : List Char) : Option (List Nat) :=
  let body := cs.takeWhile (· != '=')
  let sextets := body.filterMap (base64Alphabet.idxOf? ·)
  let missing := (4 - sextets.length % 4) % 4
  if ((cs.drop body.length).filter (· == '=')).length < missing then none
  else bytesOfSextets sextets

end InertialOdometry.Document
