import InertialOdometry.Decimal.Reading

/-!
The kinds of nodes. A node may carry a tag that names its kind; the kind of a plain word without a tag is
told by its spelling.
-/

namespace InertialOdometry.Document

inductive Kind where
  | null
  | bool
  | int
  | float
  | binary
  | timestamp
  | orderedMap
  | pairs
  | set
  | text
  | sequence
  | mapping
  | merge
  | value
  | unknown
deriving DecidableEq

namespace Kind

def tagHead : String := "tag:yaml.org,2002:"

def names : List (String × Kind) :=
  [("null", null), ("bool", bool), ("int", int), ("float", float), ("binary", binary),
    ("timestamp", timestamp), ("omap", orderedMap), ("pairs", pairs), ("set", set), ("str", text),
    ("seq", sequence), ("map", mapping), ("merge", merge), ("value", value)]

def ofTag (tag : String) : Kind :=
  ((names.find? fun (name, _) => tagHead ++ name == tag).map (·.2)).getD unknown

end Kind

/-! ### Spellings -/

def isNullWord (s : String) : Bool := ["~", "null", "Null", "NULL", ""].contains s

def isTrueWord (s : String) : Bool :=
  ["yes", "Yes", "YES", "true", "True", "TRUE", "on", "On", "ON"].contains s

def isFalseWord (s : String) : Bool :=
  ["no", "No", "NO", "false", "False", "FALSE", "off", "Off", "OFF"].contains s

/-- A decimal digit, or an underscore between digits. -/
def isNumberChar (c : Char) : Bool := c.isDigit || c == '_'

def isRow (p : Char → Bool) (cs : List Char) : Bool := !cs.isEmpty && cs.all p

def isNumberRow (first : Char → Bool) : List Char → Bool
  | [] => false
  | c :: rest => first c && rest.all isNumberChar

def colonParts : List Char → List (List Char)
  | [] => [[]]
  | c :: rest =>
    match c == ':', colonParts rest with
    | true, parts => [] :: parts
    | false, part :: parts => (c :: part) :: parts
    | false, [] => [[c]]

/-- A number below sixty in one or two digits. -/
def isSixtieth : List Char → Bool
  | [d] => d.isDigit
  | [t, d] => '0' ≤ t && t ≤ '5' && d.isDigit
  | _ => false

/-- Digits to the base sixty between colons, at least two of them; the last one need not be whole. -/
def isSexagesimal (first : Char → Bool) (whole : Bool) (cs : List Char) : Bool :=
  match colonParts cs with
  | [] | [_] => false
  | lead :: rest =>
    isNumberRow first lead &&
      if whole then rest.all isSixtieth
      else
        let last := rest.getLast?.getD []
        rest.dropLast.all isSixtieth && isSixtieth (last.takeWhile (· != '.')) &&
          last.contains '.' && ((last.dropWhile (· != '.')).drop 1).all isNumberChar

/-- The spellings of whole numbers: binary, octal, hexadecimal, decimal, or to the base sixty. -/
def isIntWord (s : String) : Bool :=
  let (_, cs) := Decimal.splitSign s.toList
  let isLead (c : Char) : Bool := '1' ≤ c && c ≤ '9'
  match cs with
  | ['0'] => true
  | '0' :: 'b' :: rest => isRow (fun c => c == '0' || c == '1' || c == '_') rest
  | '0' :: 'x' :: rest =>
    isRow (fun c => isNumberChar c || ('a' ≤ c && c ≤ 'f') || ('A' ≤ c && c ≤ 'F')) rest
  | '0' :: rest => isRow (fun c => ('0' ≤ c && c ≤ '7') || c == '_') rest
  | cs => isNumberRow isLead cs || isSexagesimal isLead true cs

def isExponent : List Char → Bool
  | [] => true
  | e :: sign :: digits =>
    (e == 'e' || e == 'E') && (sign == '+' || sign == '-') && isRow Char.isDigit digits
  | _ => false

/-- Digits and underscores behind a point, with a possible exponent. -/
def isFractionTail (cs : List Char) : Bool := isExponent (cs.dropWhile isNumberChar)

def isPointed (cs : List Char) : Bool :=
  let lead := cs.takeWhile (· != '.')
  isNumberRow Char.isDigit lead && cs.contains '.' && isFractionTail (cs.drop (lead.length + 1))

def isBarePoint : List Char → Bool
  | '.' :: d :: rest => d.isDigit && isFractionTail rest
  | _ => false

/-- The spellings of fractions. A point is needed, and an exponent needs a sign. -/
def isFloatWord (s : String) : Bool :=
  let (_, cs) := Decimal.splitSign s.toList
  isBarePoint s.toList || [".nan", ".NaN", ".NAN"].contains s ||
    [".inf", ".Inf", ".INF"].contains (String.ofList cs) || isPointed cs ||
    isSexagesimal Char.isDigit false cs

end InertialOdometry.Document
