import InertialOdometry.Decimal.Reading
import InertialOdometry.Document.Token

/-!
Scalars in a document: plain words, quoted text, and blocks of lines. Each function takes the cursor to
the first character of a scalar and gives back its text with the cursor behind it; there is none where
the rules are broken.
-/

namespace InertialOdometry.Document

/-- Folds line ends the way words are folded: a single one is a blank, of several the first is lost. -/
def foldBreaks (first : Char) (more : List Char) : List Char :=
  (if first != '\n' then [first] else if more.isEmpty then [' '] else []) ++ more

/-! ### Plain words -/

/-- The characters of a plain word up to the next blank or mark. Inside brackets more marks end it. -/
def plainRun (flow : Bool) : List Char → List Char
  | [] => []
  | c :: rest =>
    let next := rest.headD '\x00'
    if isGap c || (c == ':' && (isGap next || (flow && isFlowMark next))) ||
        (flow && (isFlowMark c || c == '?')) then []
    else c :: plainRun flow rest

/-- The line ends and blanks behind a line end within a plain word; none where a document ends. -/
def plainBreaks : Nat → Cursor → List Char → Option (List Char × Cursor)
  | 0, c, breaks => some (breaks, c)
  | fuel + 1, c, breaks =>
    if c.here == ' ' then plainBreaks fuel c.step breaks
    else
      match c.lineBreak? with
      | none => some (breaks, c)
      | some (b, c) => if c.isDocumentMark then none else plainBreaks fuel c (breaks ++ [b])

/-- What stands between two parts of a plain word, whether a line ended there, and the cursor behind
it. -/
def plainGap (c : Cursor) : List Char × Bool × Cursor :=
  let blanks := c.ahead (· == ' ')
  let c := c.skip blanks.length
  match c.lineBreak? with
  | none => (blanks, false, c)
  | some (first, c) =>
    if c.isDocumentMark then ([], true, c)
    else
      match plainBreaks (c.rest.length + 1) c [] with
      | none => ([], true, c.skipWhile fun ch => ch == ' ' || isBreak ch)
      | some (breaks, c) => (foldBreaks first breaks, true, c)

/-- A plain word, with whether a line ended behind its last part. Outside of brackets its further lines
have to be indented. -/
def plainScalar (flow : Bool) (indent : Int) : Nat → Cursor → List Char → List Char → Bool →
    List Char × Bool × Cursor
  | 0, c, text, _, crossed => (text, crossed, c)
  | fuel + 1, c, text, gap, crossed =>
    let run := if c.here == '#' then [] else plainRun flow c.rest
    if run.isEmpty then (text, crossed, c)
    else
      let text := text ++ gap ++ run
      let (gap, crossed, c) := plainGap (c.skip run.length)
      if gap.isEmpty || c.here == '#' || (!flow && (c.column : Int) < indent + 1) then
        (text, crossed, c)
      else plainScalar flow indent fuel c text gap crossed

/-! ### Quoted text -/

def escaped? (c : Char) : Option Char :=
  ([('0', '\x00'), ('a', '\x07'), ('b', '\x08'), ('t', '\t'), ('\t', '\t'), ('n', '\n'),
    ('v', '\x0b'), ('f', '\x0c'), ('r', '\r'), ('e', '\x1b'), (' ', ' '), ('"', '"'), ('\\', '\\'),
    ('/', '/'), ('N', '\x85'), ('_', '\xa0'), ('L', '\u2028'), ('P', '\u2029')].find?
      (·.1 == c)).map (·.2)

def codeLength? (c : Char) : Option Nat :=
  if c == 'x' then some 2 else if c == 'u' then some 4 else if c == 'U' then some 8 else none

def quotedBreaks : Nat → Cursor → List Char → Option (List Char × Cursor)
  | 0, _, _ => none
  | fuel + 1, c, breaks =>
    if c.isDocumentMark then none
    else
      let c := c.skipWhile fun ch => ch == ' ' || ch == '\t'
      match c.lineBreak? with
      | none => some (breaks, c)
      | some (b, c) => quotedBreaks fuel c (breaks ++ [b])

/-- What an escape stands for: a character, or the blanks that an escaped line end swallows. A code that
no character has is refused. -/
def escape (c : Cursor) : Option (List Char × Cursor) :=
  match escaped? c.here, codeLength? c.here with
  | some ch, _ => some ([ch], c.step)
  | none, some n =>
    let digits := c.step.rest.take n
    let code := ofHexDigits digits
    if digits.length == n && digits.all isHexDigit && decide code.isValidChar then
      some ([Char.ofNat code], c.step.skip n)
    else none
  | none, none =>
    match c.lineBreak? with
    | some (_, c) => quotedBreaks (c.rest.length + 1) c []
    | none => none

/-- Quoted text up to the closing quote. In double quotes a backslash escapes, in single quotes a quote
is written twice. -/
def quotedScalar (quote : Char) : Nat → Cursor → List Char → Option (List Char × Cursor)
  | 0, _, _ => none
  | fuel + 1, c, text =>
    let double := quote == '"'
    let ch := c.here
    if !double && ch == '\'' && c.peek 1 == '\'' then
      quotedScalar quote fuel (c.skip 2) (text ++ ['\''])
    else if ch == quote then some (text, c.step)
    else if double && ch == '\\' then do
      let (more, c) ← escape c.step
      quotedScalar quote fuel c (text ++ more)
    else if ch == ' ' || ch == '\t' || isEnd ch then
      let blanks := c.ahead fun ch => ch == ' ' || ch == '\t'
      let c := c.skip blanks.length
      if c.here == '\x00' then none
      else
        match c.lineBreak? with
        | none => quotedScalar quote fuel c (text ++ blanks)
        | some (first, c) => do
          let (breaks, c) ← quotedBreaks (c.rest.length + 1) c []
          quotedScalar quote fuel c (text ++ foldBreaks first breaks)
    else
      let run := c.ahead fun ch => !(isGap ch || ch == '\'' || ch == '"' || ch == '\\')
      if run.isEmpty then quotedScalar quote fuel c.step (text ++ [ch])
      else quotedScalar quote fuel (c.skip run.length) (text ++ run)

/-! ### Blocks of lines -/

/-- What happens to the line ends behind the last line of a block. -/
inductive Chomping where
  | strip
  | clip
  | keep
deriving DecidableEq

/-- The header of a block: its chomping, and the number of its blanks beyond the indentation around
it, if that is told. -/
def blockHeader (c : Cursor) : Option (Chomping × Option Nat × Cursor) :=
  let chomping? (ch : Char) : Option Chomping :=
    if ch == '+' then some .keep else if ch == '-' then some .strip else none
  let digit? (ch : Char) : Option Nat := if ch.isDigit then some (ch.toNat - '0'.toNat) else none
  let (chomping, depth, c) :=
    match chomping? c.here, digit? c.here with
    | some k, _ => (some k, digit? (c.peek 1), if (c.peek 1).isDigit then c.skip 2 else c.step)
    | none, some n =>
      (chomping? (c.peek 1), some n, if (chomping? (c.peek 1)).isSome then c.skip 2 else c.step)
    | none, none => (none, none, c)
  if depth == some 0 || !isSpaceOrEnd c.here then none
  else c.restOfLine?.map fun c => (chomping.getD .clip, depth, c)

def blockLead : Nat → Cursor → List Char → Nat → List Char × Nat × Cursor
  | 0, c, breaks, deepest => (breaks, deepest, c)
  | fuel + 1, c, breaks, deepest =>
    if c.here == ' ' then
      let c := c.step
      blockLead fuel c breaks (max deepest c.column)
    else
      match c.lineBreak? with
      | some (b, c) => blockLead fuel c (breaks ++ [b]) deepest
      | none => (breaks, deepest, c)

def blockBreaks (indent : Nat) : Nat → Cursor → List Char → List Char × Cursor
  | 0, c, breaks => (breaks, c)
  | fuel + 1, c, breaks =>
    let blanks := min (c.ahead (· == ' ')).length (indent - c.column)
    let c := c.skip blanks
    match c.lineBreak? with
    | some (b, c) => blockBreaks indent fuel c (breaks ++ [b])
    | none => (breaks, c)

/-- The lines of a block from the cursor on. `breaks` are the empty lines before the cursor. -/
def blockLines (folded : Bool) (chomping : Chomping) (indent : Nat) :
    Nat → Cursor → List Char → List Char → List Char × Cursor
  | 0, c, text, _ => (text, c)
  | fuel + 1, c, text, breaks =>
    let isIndented (ch : Char) : Bool := ch == ' ' || ch == '\t'
    let text := text ++ breaks
    let flush := !isIndented c.here
    let line := c.ahead (!isEnd ·)
    let c := c.skip line.length
    let text := text ++ line
    let (last, c) :=
      match c.lineBreak? with
      | some (b, c) => ([b], c)
      | none => ([], c)
    let (breaks, c) := blockBreaks indent (c.rest.length + 1) c []
    if c.column == indent && c.here != '\x00' then
      let gap :=
        if folded && last == ['\n'] && flush && !isIndented c.here then
          (if breaks.isEmpty then [' '] else [])
        else last
      blockLines folded chomping indent fuel c (text ++ gap) breaks
    else
      match chomping with
      | .strip => (text, c)
      | .clip => (text ++ last, c)
      | .keep => (text ++ last ++ breaks, c)

def blockScalar (folded : Bool) (indent : Int) (c : Cursor) : Option (List Char × Cursor) := do
  let (chomping, depth, c) ← blockHeader c
  let least := (max (indent + 1) 1).toNat
  let fuel := c.rest.length + 1
  let (breaks, own, c) :=
    match depth with
    | none =>
      let (breaks, deepest, c) := blockLead fuel c [] 0
      (breaks, max least deepest, c)
    | some n =>
      let own := least + n - 1
      let (breaks, c) := blockBreaks own fuel c []
      (breaks, own, c)
  if c.column == own && c.here != '\x00' then
    return blockLines folded chomping own fuel c [] breaks
  else
    return (if chomping = .keep then breaks else [], c)

end InertialOdometry.Document
