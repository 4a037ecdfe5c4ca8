import InertialOdometry.Document.Base64
import InertialOdometry.Document.Node

/-!
The value of a document. Scalars are read as their kinds ask; a mapping takes over the entries of the
mappings that it merges, unless it has entries of its own for their keys.
-/

namespace InertialOdometry.Document

variable {α : Type} [Scalar α]

/-! ### Scalars -/

def signOf (cs : List Char) : Bool × List Char := Decimal.splitSign cs

def ofBase (base : Nat) (cs : List Char) : Nat := cs.foldl (fun n c => base * n + hexValue c) 0

def inBase (base : Nat) (cs : List Char) : Option Nat :=
  if !cs.isEmpty && cs.all (fun c => isHexDigit c && hexValue c < base) then some (ofBase base cs)
  else none

def decimalRow (cs : List Char) : Option Nat :=
  match Decimal.readInteger (.ofList cs) with
  | .value (.ofNat n) => some n
  | _ => none

def sexagesimal (digits : List Nat) : Nat := digits.foldl (fun n d => 60 * n + d) 0

/-- The characters of a number behind its sign, without the underscores. -/
def numberChars (s : String) : Except Failure (Bool × List Char) :=
  let cs := s.toList.filter (· != '_')
  if cs.isEmpty then .error .emptyScalar else .ok (signOf cs)

/-- A whole number, binary, octal, hexadecimal, decimal or to the base sixty. -/
def readInt (s : String) : Except Failure Int := do
  let (negative, cs) ← numberChars s
  let n : Option Nat :=
    match cs with
    | ['0'] => some 0
    | '0' :: 'b' :: rest => inBase 2 rest
    | '0' :: 'x' :: rest => inBase 16 rest
    | '0' :: 'o' :: rest => inBase 8 rest
    | '0' :: rest => inBase 8 rest
    | cs =>
      if cs.contains ':' then ((colonParts cs).mapM decimalRow).map sexagesimal else decimalRow cs
  match n with
  | some n => return if negative then -(n : Int) else n
  | none => throw (if cs.isEmpty then .emptyScalar else .unreadableScalar)

def readScalar (s : String) : Option α := (Decimal.readNumber? s).map Scalar.ofLiteral

/-- A fraction, possibly with digits to the base sixty in front of it. These are added up from the last
one on. -/
def readFloat (s : String) : Except Failure α := do
  let (negative, cs) ← numberChars (s.map Char.toLower)
  let x : Option α :=
    match String.ofList cs with
    | ".inf" => some Scalar.infinity
    | ".nan" => some Scalar.notANumber
    | text =>
      if cs.contains ':' then
        ((colonParts cs).mapM fun part => readScalar (.ofList part)).map fun digits : List α =>
          (digits.reverse.foldl (fun (sum, base) d => (sum + d * Scalar.nat base, base * 60))
            (Scalar.zero, 1)).1
      else readScalar text
  match x with
  | some x => return if negative then -x else x
  | none => throw .unreadableScalar

def scalarValue (kind : Kind) (s : String) : Except Failure (Value α) :=
  match kind with
  | .null => .ok .null
  | .bool =>
    let lower := s.map Char.toLower
    if isTrueWord lower then .ok (.bool true)
    else if isFalseWord lower then .ok (.bool false)
    else .error .unknownName
  | .int => (readInt s).map .int
  | .float => (readFloat s).map .number
  | .binary =>
    if s.toList.all fun c => c.toNat < 128 then
      (decode64 s.toList).elim (.error .malformedDocument) fun bytes => .ok (.bytes bytes)
    else .error .malformedDocument
  | .timestamp =>
    match Stamp.ofText? s with
    | some stamp => stamp.toValue?.elim (.error .unreadableScalar) .ok
    | none => .error .notAStamp
  | .text => .ok (.text s)
  | _ => .error .malformedDocument

/-! ### Collections -/

/-- Whether a value may be a key: one that has no parts that could change. -/
def isKeyValue : Value α → Bool
  | .list _ | .set _ | .map _ => false
  | _ => true

def pairOf (entries : List (Value α × Value α)) : Except Failure (Value α) :=
  match entries with
  | [(key, value)] => .ok (.tuple [key, value])
  | _ => .error .malformedDocument

def Node.isMerge : Node → Bool
  | .scalar .merge _ | .sequence .merge _ | .mapping .merge _ => true
  | _ => false

/-- Whether a node is the sign that can stand for text as a key. -/
def Node.isValueSign : Node → Bool
  | .scalar .value _ => true
  | _ => false

mutual

def valueOf : Node → Except Failure (Value α)
  | .scalar kind s => scalarValue kind s
  | .sequence kind items =>
    match kind with
    | .sequence => (valuesOf items).map .list
    | .orderedMap | .pairs => (pairsOf items).map .list
    | _ => .error .malformedDocument
  | .mapping kind entries => do
    let (merged, own) ← entriesOf entries
    match kind, Value.ofEntries (merged ++ own) with
    | .mapping, v => return v
    | .set, .map entries => return .set (entries.map (·.1))
    | _, _ => throw .malformedDocument

def valuesOf : List Node → Except Failure (List (Value α))
  | [] => .ok []
  | node :: rest => do
    let v ← valueOf node
    return v :: (← valuesOf rest)

def pairsOf : List Node → Except Failure (List (Value α))
  | [] => .ok []
  | .mapping _ entries :: rest => do
    let (_, own) ← rawEntriesOf entries
    let pair ← pairOf own
    return pair :: (← pairsOf rest)
  | _ :: _ => .error .malformedDocument

def rawEntriesOf : List (Node × Node) →
    Except Failure (List (Value α × Value α) × List (Value α × Value α))
  | [] => .ok ([], [])
  | (key, value) :: rest => do
    let k ← valueOf key
    let v ← valueOf value
    let (merged, own) ← rawEntriesOf rest
    return (merged, (k, v) :: own)

/-- The entries of a mapping, those that it merges apart from its own. -/
def entriesOf : List (Node × Node) →
    Except Failure (List (Value α × Value α) × List (Value α × Value α))
  | [] => .ok ([], [])
  | (key, value) :: rest => do
    if key.isMerge then
      let more ← mergedOf value
      let (merged, own) ← entriesOf rest
      return (more ++ merged, own)
    else
      let k ← if key.isValueSign then .ok (.text "=") else valueOf key
      if !isKeyValue k then throw .malformedDocument
      let v ← valueOf value
      let (merged, own) ← entriesOf rest
      return (merged, (k, v) :: own)

/-- The entries that a merged node stands for: those of a mapping, or those of several mappings, of which
the first ones count most. -/
def mergedOf : Node → Except Failure (List (Value α × Value α))
  | .mapping _ entries => do
    let (merged, own) ← entriesOf entries
    return merged ++ own
  | .sequence _ items => mergedOfAll items
  | .scalar _ _ => .error .malformedDocument

/-- The entries of several merged mappings, those of the last one first. -/
def mergedOfAll : List Node → Except Failure (List (Value α × Value α))
  | [] => .ok []
  | .mapping _ entries :: rest => do
    let (merged, own) ← entriesOf entries
    return (← mergedOfAll rest) ++ (merged ++ own)
  | _ :: _ => .error .malformedDocument

end

def read (text : String) : Except Failure (Value α) :=
  let cs := unifyBreaks text.toList
  if !cs.all isAllowed then .error .malformedDocument
  else
    match node? cs with
    | some root => valueOf root
    | none => .error .malformedDocument

end InertialOdometry.Document
