/-!
White space. Numbers may be surrounded by it, in any script.
-/

namespace InertialOdometry.Text

/-- The blanks of the seven bit range that may surround a number: the space, the tabulators and
the line ends. -/
def isPlainBlank (c : Char) : Bool :=
  c == ' ' || (decide (9 ≤ c.toNat) && decide (c.toNat ≤ 13))

/-- The blanks beyond the seven bit range: the next-line control, the spaces of all widths and the
two separators. -/
def isWideBlank (c : Char) : Bool :=
  [0x85, 0xA0, 0x1680, 0x2028, 0x2029, 0x202F, 0x205F, 0x3000].contains c.toNat ||
    (decide (0x2000 ≤ c.toNat) && decide (c.toNat ≤ 0x200A))

def trimBoth (p : Char → Bool) (cs : List Char) : List Char :=
  ((cs.dropWhile p).reverse.dropWhile p).reverse

end InertialOdometry.Text
