import InertialOdometry.Document.Character
import InertialOdometry.Document.Kind

/-!
The ways in which a text can be written in a document, and which of them a given text allows: as it
stands, between single quotes, or between double quotes with escapes. `Traits.ofText` looks at the
text once and notes what stands against one way or another.
-/

namespace InertialOdometry.Document

structure Traits where
  empty : Bool
  /-- It has line ends. -/
  multiline : Bool
  /-- It could be taken for something else than a word. -/
  hasIndicators : Bool
  /-- It has characters that need an escape. -/
  hasSpecials : Bool
  /-- A blank or a line end stands at its beginning or its end. -/
  paddedEnds : Bool
  /-- A blank stands right behind a line end. -/
  breakSpace : Bool
  /-- A line end stands right behind a blank. -/
  spaceBreak : Bool
deriving DecidableEq

def isWordGap (c : Char) : Bool := isGap c || c == '\r'

def gapAhead : List Char → Bool
  | [] => true
  | c :: _ => isWordGap c

/-- The characters that begin something else than a word wherever they stand first. -/
def isLeadIndicator (c : Char) : Bool := "#,[]{}&*!|>'\"%@`".toList.contains c

/-- Whether the text, read behind its first character, has a colon with a gap behind it or a comment
sign with a gap before it. -/
def innerIndicators (previous : Char) : List Char → Bool
  | [] => false
  | c :: rest =>
    (c == ':' && gapAhead rest) || (c == '#' && isWordGap previous) || innerIndicators c rest

/-- Whether a text could be taken for something else than a word. -/
def hasIndicators : List Char → Bool
  | [] => false
  | cs@(c :: rest) =>
    cs.take 3 == ['-', '-', '-'] || cs.take 3 == ['.', '.', '.'] || isLeadIndicator c ||
      ("?:-".toList.contains c && gapAhead rest) || innerIndicators c rest

/-- Whether somewhere in a text a character with `p` stands right before one with `q`. -/
def hasPair (p q : Char → Bool) : List Char → Bool
  | c :: d :: rest => (p c && q d) || hasPair p q (d :: rest)
  | _ => false

def isShown (c : Char) : Bool := ' ' ≤ c && c ≤ '~'

def Traits.ofText (cs : List Char) : Traits :=
  let isPad (c : Char) : Bool := c == ' ' || isBreak c
  { empty := cs.isEmpty
    multiline := cs.any isBreak
    hasIndicators := Document.hasIndicators cs
    hasSpecials := cs.any fun c => !(c == '\n' || isShown c)
    paddedEnds := cs.head?.any isPad || cs.getLast?.any isPad
    breakSpace := hasPair isBreak (· == ' ') cs
    spaceBreak := hasPair (· == ' ') isBreak cs }

namespace Traits

def allowsPlain (t : Traits) : Bool :=
  !(t.multiline || t.hasIndicators || t.hasSpecials || t.paddedEnds || t.breakSpace || t.spaceBreak)

def allowsSingle (t : Traits) : Bool := !(t.hasSpecials || t.breakSpace || t.spaceBreak)

end Traits

inductive Style where
  | plain
  | single
  | double
deriving DecidableEq

/-- The way of writing a text as a node of a kind, in front of a colon (`inKey`) or elsewhere. A text
whose spelling has another kind than it should have needs quotes. -/
def Style.choose (t : Traits) (plainKindFits inKey : Bool) : Style :=
  let awkwardKey := inKey && (t.empty || t.multiline)
  if plainKindFits && !awkwardKey && t.allowsPlain then .plain
  else if t.allowsSingle && !(inKey && t.multiline) then .single
  else .double

end InertialOdometry.Document
