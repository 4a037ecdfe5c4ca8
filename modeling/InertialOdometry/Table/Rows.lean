import InertialOdometry.Failure

/-!
The rows of a text table. Fields stand between commas; a field that begins with a quote may hold commas
and line ends, and a doubled quote stands for one. All line ends are understood, and lines with nothing
but blanks are no rows.
-/

namespace InertialOdometry.Table

inductive Phase where
  /-- At the beginning of a line. -/
  | line
  /-- In a line with nothing but blanks so far. -/
  | blanks
  /-- At the beginning of a field. -/
  | field
  | plain
  | quoted
  /-- Behind a quote in a quoted field, which may close it. -/
  | closing
  /-- Behind a carriage return that ends a row. -/
  | ended
  /-- Behind a carriage return that ends a line without a row. -/
  | skipped
deriving DecidableEq

/-- What has been read: the characters of the current field, the fields of the current row and the
rows before it, last ones first. -/
structure Reader where
  phase : Phase
  field : List Char
  row : List String
  rows : List (List String)

namespace Reader

def start : Reader := ⟨.line, [], [], []⟩

def push (c : Char) (r : Reader) (phase : Phase) : Reader :=
  { r with phase := phase, field := c :: r.field }

def endField (r : Reader) (phase : Phase) : Reader :=
  { r with phase := phase, field := [], row := .ofList r.field.reverse :: r.row }

def endRow (r : Reader) : Reader := ⟨.line, [], [], r.row.reverse :: r.rows⟩

/-- Takes in what separates fields and rows; everything else goes on as `otherwise` says. -/
def separated (r : Reader) (c : Char) (otherwise : Reader) : Reader :=
  if c == '\n' then (r.endField .line).endRow
  else if c == '\r' then r.endField .ended
  else if c == ',' then r.endField .field
  else otherwise

def inField (r : Reader) (c : Char) : Reader :=
  r.separated c (if c == '"' then { r with phase := .quoted } else r.push c .plain)

def inLine (r : Reader) (c : Char) : Reader :=
  if c == '\n' then r
  else if c == '\r' then { r with phase := .skipped }
  else if c == ' ' || c == '\t' then r.push c .blanks
  else r.inField c

def step (r : Reader) (c : Char) : Reader :=
  match r.phase with
  | .line => r.inLine c
  | .blanks =>
    if c == '\n' then { r with phase := .line, field := [] }
    else if c == '\r' then { r with phase := .skipped, field := [] }
    else if c == ' ' || c == '\t' then r.push c .blanks
    else r.separated c (r.push c .plain)
  | .field => r.inField c
  | .plain => r.separated c (r.push c .plain)
  | .quoted => if c == '"' then { r with phase := .closing } else r.push c .quoted
  | .closing => r.separated c (r.push c (if c == '"' then .quoted else .plain))
  | .ended =>
    if c == '\n' then r.endRow
    else if c == ',' then r.endRow.endField .field
    else r.endRow.inLine c
  | .skipped =>
    let r := { r with phase := .line }
    if c == '\n' then r else r.inLine c

/-- The rows at the end of the text. A field whose quote was not closed has no end. -/
def finish (r : Reader) : Except Failure (List (List String)) :=
  match r.phase with
  | .line | .blanks | .skipped => .ok r.rows.reverse
  | .ended => .ok r.endRow.rows.reverse
  | .field | .plain | .closing => .ok (r.endField .line).endRow.rows.reverse
  | .quoted => .error .malformedTable

end Reader

/-- The rows of a text. A byte order mark in front of it is left out. -/
def rowsOf (text : String) : Except Failure (List (List String)) :=
  let cs := text.toList
  let cs := if cs.head? == some '\ufeff' then cs.drop 1 else cs
  (cs.foldl Reader.step .start).finish

end InertialOdometry.Table
