import InertialOdometry.Document.Scalar
import InertialOdometry.Document.Tagging

/-!
The tokens of a text. Most tokens are found where they stand. A key without a mark is only known to be
one when the colon behind it is met: every token that could be such a key is remembered with its place,
and the colon puts the marks in front of it. Such a key ends on the line where it begins, and within
1024 characters.
-/

namespace InertialOdometry.Document

/-- A token that could be a key: how many tokens there were before it, where it begins, and whether
nothing but a key can stand there. -/
structure KeyPlace where
  tokens : Nat
  index : Nat
  line : Nat
  column : Nat
  required : Bool

/-- The state of the lexer. The tokens are kept latest first. The candidates for a key are kept by level
of brackets, innermost first, and so are the indentations around the current one. -/
structure Lexer where
  cursor : Cursor
  tokens : List Token
  depth : Nat
  indent : Int
  outer : List Int
  keyAllowed : Bool
  candidate : Option KeyPlace
  suspended : List (Option KeyPlace)

namespace Lexer

def start (text : List Char) : Lexer where
  cursor := .start text
  tokens := []
  depth := 0
  indent := -1
  outer := []
  keyAllowed := true
  candidate := none
  suspended := []

def inFlow (l : Lexer) : Bool := l.depth != 0

def emit (l : Lexer) (t : Token) : Lexer := { l with tokens := t :: l.tokens }

/-- Puts a token behind the first `n` tokens. -/
def emitAt (l : Lexer) (n : Nat) (t : Token) : Lexer :=
  let later := l.tokens.length - n
  { l with tokens := l.tokens.take later ++ t :: l.tokens.drop later }

def mark (l : Lexer) (n : Nat) (t : Token) : Lexer :=
  { l with cursor := l.cursor.skip n }.emit t

/-- Closes the collections that are indented further than `column`. Within brackets indentation does not
count. -/
def unwind (l : Lexer) (column : Int) : Lexer :=
  if l.inFlow then l else go l.outer l
where
  go (outer : List Int) (l : Lexer) : Lexer :=
    if l.indent ≤ column then l
    else
      match outer with
      | [] => l
      | i :: rest => go rest ({ l with indent := i, outer := rest }.emit .blockEnd)

def deepen (l : Lexer) (column : Nat) : Option Lexer :=
  if l.indent < column then some { l with indent := column, outer := l.indent :: l.outer } else none

def dropCandidate (l : Lexer) : Option Lexer :=
  if l.candidate.any (·.required) then none else some { l with candidate := none }

/-- Remembers the next token as a candidate for a key, where one may stand. -/
def markCandidate (l : Lexer) : Option Lexer :=
  if l.keyAllowed then do
    let l ← l.dropCandidate
    let c := l.cursor
    let required := !l.inFlow && l.indent == c.column
    return { l with candidate := some ⟨l.tokens.length, c.index, c.line, c.column, required⟩ }
  else some l

def isStale (l : Lexer) (k : KeyPlace) : Bool :=
  k.line != l.cursor.line || 1024 < l.cursor.index - k.index

def dropStale (l : Lexer) : Option Lexer :=
  let stale (k : Option KeyPlace) : Bool := k.any l.isStale
  if (l.candidate :: l.suspended).any fun k => stale k && k.any (·.required) then none
  else
    let fresh (k : Option KeyPlace) : Option KeyPlace := if stale k then none else k
    some { l with candidate := fresh l.candidate, suspended := l.suspended.map fresh }

/-- Passes blanks, comments and line ends. Behind a line end a key may stand. -/
def toNext : Nat → Lexer → Lexer
  | 0, l => l
  | fuel + 1, l =>
    let c := l.cursor.skipWhile (· == ' ')
    let c := if c.here == '#' then c.skipWhile (!isEnd ·) else c
    match c.lineBreak? with
    | some (_, c) =>
      toNext fuel { l with cursor := c, keyAllowed := l.keyAllowed || !l.inFlow }
    | none => { l with cursor := c }

/-- Closes all collections in front of a line that speaks about the document. -/
def closeAll (l : Lexer) : Option Lexer := do
  let l ← (l.unwind (-1)).dropCandidate
  return { l with keyAllowed := false }

def openFlow (l : Lexer) (t : Token) : Option Lexer := do
  let l ← l.markCandidate
  return { l with
    depth := l.depth + 1
    keyAllowed := true
    candidate := none
    suspended := l.candidate :: l.suspended }.mark 1 t

def closeFlow (l : Lexer) (t : Token) : Option Lexer := do
  let l ← l.dropCandidate
  match l.suspended with
  | [] => none
  | k :: rest =>
    return { l with depth := l.depth - 1, keyAllowed := false, candidate := k, suspended := rest }.mark 1 t

/-- The mark of an entry or of a key, which begins a collection where it is indented deeper. -/
def opening (l : Lexer) (first : Token) : Option Lexer :=
  if l.inFlow then some l
  else if !l.keyAllowed then none
  else some ((l.deepen l.cursor.column).elim l (·.emit first))

def blockEntry (l : Lexer) : Option Lexer := do
  let l ← (← l.opening .blockSequenceStart).dropCandidate
  return { l with keyAllowed := true }.mark 1 .blockEntry

def keyMark (l : Lexer) : Option Lexer := do
  let l ← (← l.opening .blockMappingStart).dropCandidate
  return { l with keyAllowed := !l.inFlow }.mark 1 .key

/-- The colon in front of a value. With a candidate for a key, the mark of a key is put in front of it. -/
def valueMark (l : Lexer) : Option Lexer := do
  match l.candidate with
  | some k =>
    let l := { l with candidate := none, keyAllowed := false }.emitAt k.tokens .key
    let l :=
      if l.inFlow then l
      else (l.deepen k.column).elim l (·.emitAt k.tokens .blockMappingStart)
    return l.mark 1 .value
  | none =>
    let l ← (← l.opening .blockMappingStart).dropCandidate
    return { l with keyAllowed := !l.inFlow }.mark 1 .value

def content (l : Lexer) (scan : Cursor → Option (Token × Cursor)) : Option Lexer := do
  let l ← l.markCandidate
  let (t, c) ← scan l.cursor
  return { l with keyAllowed := false, cursor := c }.emit t

def block (l : Lexer) (folded : Bool) : Option Lexer := do
  let l ← l.dropCandidate
  let (text, c) ← blockScalar folded l.indent l.cursor.step
  return { l with keyAllowed := true, cursor := c }.emit (.scalar (.ofList text) false)

def quotedText (l : Lexer) (quote : Char) : Option Lexer :=
  l.content fun c => do
    let (text, c) ← quotedScalar quote (c.rest.length + 1) c.step []
    return (.scalar (.ofList text) false, c)

def plainText (l : Lexer) : Option Lexer := do
  let l ← l.markCandidate
  let c := l.cursor
  let (text, crossed, c) := plainScalar l.inFlow l.indent (c.rest.length + 1) c [] [] false
  return { l with keyAllowed := crossed, cursor := c }.emit (.scalar (.ofList text) true)

def beginsPlain (l : Lexer) : Bool :=
  let ch := l.cursor.here
  let next := l.cursor.peek 1
  !(isGap ch || isIndicator ch) ||
    (!isGap next && (ch == '-' || (!l.inFlow && (ch == '?' || ch == ':'))))

def token (l : Lexer) : Option Lexer :=
  let ch := l.cursor.here
  let gapNext := isGap (l.cursor.peek 1)
  let atStart := l.cursor.column == 0
  if ch == '%' && atStart then do
    let l ← l.closeAll
    let (t, c) ← directive? l.cursor
    return { l with cursor := c }.emit t
  else if atStart && l.cursor.isMark ['-', '-', '-'] then
    l.closeAll.map (·.mark 3 .documentStart)
  else if atStart && l.cursor.isMark ['.', '.', '.'] then
    l.closeAll.map (·.mark 3 .documentEnd)
  else if ch == '[' then l.openFlow .flowSequenceStart
  else if ch == '\x7b' then l.openFlow .flowMappingStart
  else if ch == ']' then l.closeFlow .flowSequenceEnd
  else if ch == '\x7d' then l.closeFlow .flowMappingEnd
  else if ch == ',' then do
    let l ← l.dropCandidate
    return { l with keyAllowed := true }.mark 1 .flowEntry
  else if ch == '-' && gapNext then l.blockEntry
  else if ch == '?' && (l.inFlow || gapNext) then l.keyMark
  else if ch == ':' && (l.inFlow || gapNext) then l.valueMark
  else if ch == '*' then
    l.content fun c => (anchorName? c.step).map fun (s, c) => (.alias s, c)
  else if ch == '&' then
    l.content fun c => (anchorName? c.step).map fun (s, c) => (.anchor s, c)
  else if ch == '!' then l.content tag?
  else if ch == '|' && !l.inFlow then l.block false
  else if ch == '>' && !l.inFlow then l.block true
  else if ch == '\'' || ch == '"' then l.quotedText ch
  else if l.beginsPlain then l.plainText
  else none

def run : Nat → Lexer → Option (List Token)
  | 0, _ => none
  | fuel + 1, l => do
    let l ← (toNext (l.cursor.rest.length + 1) l).dropStale
    let l := l.unwind l.cursor.column
    if l.cursor.rest.isEmpty then
      let l ← l.closeAll
      return l.tokens.reverse
    else run fuel (← l.token)

end Lexer

/-- The tokens of a text, if it follows the rules of tokens. A mark of the order of bytes may stand in
front of it. -/
def tokens? (text : List Char) : Option (List Token) :=
  let text := if text.head? == some orderMark then text.drop 1 else text
  Lexer.run (text.length + 2) (.start text)

end InertialOdometry.Document
