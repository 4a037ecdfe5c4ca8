import InertialOdometry.Text.Printable
import InertialOdometry.Decimal.Fixed

/-!
Quoted text, as values and messages show it. A text stands between single quotes, or between double
quotes when it holds single ones and no double one. Line ends, tabulators, backslashes and the quote
in use are escaped by name, characters without a visible form by their code.
-/

namespace InertialOdometry.Text

/-- Hexadecimal digits of a number, in lower case, filled with zeros up to `width`. -/
def hexadecimal (width n : Nat) : List Char :=
  Decimal.padZeros width (Nat.toDigits 16 n)

def codeEscape (n : Nat) : List Char :=
  if n < 0x100 then '\\' :: 'x' :: hexadecimal 2 n
  else if n < 0x10000 then '\\' :: 'u' :: hexadecimal 4 n
  else '\\' :: 'U' :: hexadecimal 8 n

/-- One character of a quoted text; `visible` says whether it is shown as itself. -/
def quotedChar (quote : Char) (visible : Bool) (c : Char) : List Char :=
  if c == '\n' then ['\\', 'n']
  else if c == '\r' then ['\\', 'r']
  else if c == '\t' then ['\\', 't']
  else if c == '\\' || c == quote then ['\\', c]
  else if visible then [c]
  else codeEscape c.toNat

def quoteFor (cs : List Char) : Char :=
  if cs.contains '\'' && !cs.contains '"' then '"' else '\''

def quoted (s : String) : String :=
  let cs := s.toList
  let quote := quoteFor cs
  .ofList (quote :: cs.flatMap (fun c => quotedChar quote (isPrintable c) c) ++ [quote])

/-- A row of bytes between quotes, marked with a `b`. Only the visible characters of the seven bit
range stand for themselves. -/
def quotedBytes (bytes : List Nat) : String :=
  let cs := bytes.map Char.ofNat
  let quote := quoteFor cs
  let visible (c : Char) : Bool := decide (0x20 ≤ c.toNat) && decide (c.toNat < 0x7F)
  .ofList ('b' :: quote :: cs.flatMap (fun c => quotedChar quote (visible c) c) ++ [quote])

end InertialOdometry.Text
