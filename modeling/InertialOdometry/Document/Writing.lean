import InertialOdometry.Document.Base64
import InertialOdometry.Document.Node
import InertialOdometry.Document.Page
import InertialOdometry.Value.Order
import InertialOdometry.Value.Printing

/-!
The text of a document. Collections are written in lines, their parts two columns deeper; the keys of
a mapping come in order, and a sequence within a mapping begins below its key. `Document.write` is read
back by `Document.read`.
-/

namespace InertialOdometry.Document

variable {α : Type} [Scalar α]

/-- The text of a scalar: its shortest digits, with a point also in front of an exponent. -/
def scalarText (x : α) : String :=
  if Scalar.isNaN x then ".nan"
  else if !Scalar.isFinite x then (if x < Scalar.zero then "-.inf" else ".inf")
  else
    let cs := (Scalar.text x).toList
    let (mantissa, exponent) := Page.rowOf (· != 'e') cs
    .ofList (if exponent.isEmpty || mantissa.contains '.' then cs else mantissa ++ '.' :: '0' :: exponent)

/-- The text of a value that has no parts, with the length of the tag that it would carry. -/
def leaf? : Value α → Option (String × Nat)
  | .null => some ("null", "!!null".length)
  | .bool b => some (if b then "true" else "false", "!!bool".length)
  | .int n => some (toString n, "!!int".length)
  | .number x => some (scalarText x, "!!float".length)
  | .text s => some (s, "!!str".length)
  | .date d => some (d.text, "!!timestamp".length)
  | .moment m => some (m.text, "!!timestamp".length)
  | _ => none

/-- Whether a key stands in one line with its value. It has to be short and without line ends. -/
def isSimpleKey (key : Value α) : Bool :=
  match leaf? key with
  | some (s, tag) => !s.isEmpty && !s.toList.any isBreak && decide (tag + s.length < 128)
  | none => false

inductive Place where
  | root
  | sequence
  | mapping
  | key
deriving DecidableEq

/-- Writes a value that has no parts. Texts are quoted as they need it; all others stand as they are. -/
def writeLeaf (indent : Nat) (place : Place) (v : Value α) (p : Page) : Page :=
  let inKey := place == .key
  match v with
  | .text s =>
    let cs := s.toList
    match Style.choose (.ofText cs) (Kind.ofWord s == .text) inKey with
    | .plain => p.plain indent (!inKey) cs
    | .single => p.single indent (!inKey) cs
    | .double => p.double indent (!inKey) cs
  | v => (leaf? v).elim p fun (s, _) => p.plain indent (!inKey) s.toList

def writeBytes (indent : Nat) (bytes : List Nat) (p : Page) : Page :=
  let p := p.sign "!!binary" true
  if bytes.isEmpty then p.double indent true []
  else
    let lines := (String.ofList (encodeLines bytes.length bytes)).splitOn "\n"
    p.literal indent (lines.dropLast.map String.toList)

/-- The column of the parts of a sequence: that of the mapping it stands in, if it begins below its key,
or else two more. -/
def itemColumn (indent : Option Nat) (place : Place) (p : Page) : Nat :=
  match indent with
  | none => 0
  | some n => if place == .mapping && !p.indenting then n else n + 2

/-- Writes a key, by what writes its node, with its colon. A key that does not fit in one line with its
value is marked. -/
def keyed (column : Nat) (simple : Bool) (node : Place → Page → Page) (p : Page) : Page :=
  if simple then (node .key p).sign ":" false
  else ((node .mapping (p.sign "?" true true)).indentTo column).sign ":" true true

mutual

/-- Writes a node. `indent` is the column of the collection that it stands in. -/
def writeNode (indent : Option Nat) (place : Place) (v : Value α) (p : Page) : Page :=
  match v with
  | .list [] => (p.sign "[" true).sign "]" false
  | .list xs => writeItems (itemColumn indent place p) xs p
  | .tuple xs =>
    let p := p.sign "!!python/tuple" true
    if xs.isEmpty then (p.sign "[" true).sign "]" false
    else writeItems (itemColumn indent place p) xs p
  | .set xs =>
    let p := p.sign "!!set" true
    if xs.isEmpty then (p.sign "\x7b" true).sign "\x7d" false
    else writeMembers (indent.elim 0 (· + 2)) xs p
  | .map [] => (p.sign "\x7b" true).sign "\x7d" false
  | .map entries => writeEntries (indent.elim 0 (· + 2)) entries p
  | .bytes bs => writeBytes (indent.getD 0 + 2) bs p
  | v => writeLeaf (indent.getD 0 + 2) place v p

def writeItems (column : Nat) (xs : List (Value α)) (p : Page) : Page :=
  match xs with
  | [] => p
  | x :: xs =>
    let p := (p.indentTo column).sign "-" true true
    writeItems column xs (writeNode (some column) .sequence x p)

/-- Writes the items of a set as keys without a value. -/
def writeMembers (column : Nat) (xs : List (Value α)) (p : Page) : Page :=
  match xs with
  | [] => p
  | x :: xs =>
    let p := keyed column (isSimpleKey x) (fun place p => writeNode (some column) place x p)
      (p.indentTo column)
    writeMembers column xs (writeLeaf (column + 2) .mapping (.null : Value α) p)

def writeEntries (column : Nat) (entries : List (Value α × Value α)) (p : Page) : Page :=
  match entries with
  | [] => p
  | (key, value) :: rest =>
    let p := keyed column (isSimpleKey key) (fun place p => writeNode (some column) place key p)
      (p.indentTo column)
    writeEntries column rest (writeNode (some column) .mapping value p)

end

def write (v : Value α) : String := ((writeNode none .root v.inOrder .blank).indentTo 0).text

end InertialOdometry.Document
