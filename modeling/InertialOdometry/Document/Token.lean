import InertialOdometry.Document.Character

/-!
The tokens of a document, and the cursor that finds them: what is left of the text, and where that
stands.
-/

namespace InertialOdometry.Document

/-- A line that speaks about the document: its version, an abbreviation for tags, or something that is
passed over. -/
inductive Directive where
  | version (major : Nat)
  | tag (handle head : String)
  | other

/-- The tokens of a document. Beginnings and ends of collections without brackets are told by their
indentation. -/
inductive Token where
  | directive (d : Directive)
  | documentStart
  | documentEnd
  | blockSequenceStart
  | blockMappingStart
  | blockEnd
  | flowSequenceStart
  | flowSequenceEnd
  | flowMappingStart
  | flowMappingEnd
  | blockEntry
  | flowEntry
  | key
  | value
  | alias (name : String)
  | anchor (name : String)
  | tag (handle : Option String) (suffix : String)
  | scalar (text : String) (isPlain : Bool)

/-- What is left of a text, with the number of characters and lines before it and the number of
characters before it in its line. -/
structure Cursor where
  rest : List Char
  index : Nat
  line : Nat
  column : Nat

namespace Cursor

def start (text : List Char) : Cursor := ⟨text, 0, 0, 0⟩

/-- The character `k` places ahead; behind the text there are null characters. -/
def peek (c : Cursor) (k : Nat) : Char := c.rest.getD k '\x00'

def here (c : Cursor) : Char := c.peek 0

def step (c : Cursor) : Cursor :=
  match c.rest with
  | [] => c
  | ch :: rest =>
    if isBreak ch then ⟨rest, c.index + 1, c.line + 1, 0⟩
    else ⟨rest, c.index + 1, c.line, if ch == orderMark then c.column else c.column + 1⟩

def skip (c : Cursor) : Nat → Cursor
  | 0 => c
  | n + 1 => c.step.skip n

def ahead (c : Cursor) (p : Char → Bool) : List Char := c.rest.takeWhile p

def skipWhile (c : Cursor) (p : Char → Bool) : Cursor := c.skip (c.ahead p).length

def isMark (c : Cursor) (mark : List Char) : Bool :=
  c.rest.take 3 == mark && isGap (c.peek 3)

/-- Whether a new document begins or this one ends here, if this is the beginning of a line. -/
def isDocumentMark (c : Cursor) : Bool :=
  c.isMark ['-', '-', '-'] || c.isMark ['.', '.', '.']

/-- Passes a line end, if there is one. It is given back as it reads: most of them as a line feed. -/
def lineBreak? (c : Cursor) : Option (Char × Cursor) :=
  if isBreak c.here then
    some (if c.here == '\u2028' || c.here == '\u2029' then c.here else '\n', c.step)
  else none

def restOfLine? (c : Cursor) : Option Cursor :=
  let c := c.skipWhile (· == ' ')
  let c := if c.here == '#' then c.skipWhile (!isEnd ·) else c
  if isEnd c.here then some (c.lineBreak?.elim c (·.2)) else none

end Cursor

end InertialOdometry.Document
