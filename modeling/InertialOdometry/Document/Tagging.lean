import InertialOdometry.Decimal.Reading
import InertialOdometry.Document.Token

/-!
The parts of a document that speak about it: directives at the beginning of a line, and the anchors and
tags in front of nodes.
-/

namespace InertialOdometry.Document

def name? (c : Cursor) : Option (String × Cursor) :=
  let cs := c.ahead isNameChar
  if cs.isEmpty then none else some (.ofList cs, c.skip cs.length)

def number? (c : Cursor) : Option (Nat × Cursor) :=
  let cs := c.ahead Char.isDigit
  if cs.isEmpty then none else some (Decimal.ofDigits cs, c.skip cs.length)

def anchorName? (c : Cursor) : Option (String × Cursor) := do
  let (s, c) ← name? c
  if isGap c.here || "?:,]\x7d%@`".toList.contains c.here then return (s, c) else none

/-- The bytes of a row of escapes, each a percent sign with two hexadecimal digits. -/
def escapedBytes : Nat → Cursor → List Nat → Option (List Nat × Cursor)
  | 0, _, _ => none
  | fuel + 1, c, bytes =>
    if c.here == '%' then
      if isHexDigit (c.peek 1) && isHexDigit (c.peek 2) then
        escapedBytes fuel (c.skip 3) (bytes ++ [ofHexDigits [c.peek 1, c.peek 2]])
      else none
    else some (bytes, c)

def decode? (bytes : List Nat) : Option String :=
  String.fromUTF8? ⟨(bytes.map UInt8.ofNat).toArray⟩

def tagChars : Nat → Cursor → String → Option (String × Cursor)
  | 0, _, _ => none
  | fuel + 1, c, text =>
    if c.here == '%' then do
      let (bytes, c) ← escapedBytes (c.rest.length + 1) c []
      tagChars fuel c (text ++ (← decode? bytes))
    else
      let cs := c.ahead fun ch => isTagChar ch && ch != '%'
      if cs.isEmpty then (if text.isEmpty then none else some (text, c))
      else tagChars fuel (c.skip cs.length) (text ++ .ofList cs)

def tagText? (c : Cursor) : Option (String × Cursor) := tagChars (c.rest.length + 1) c ""

/-- The abbreviation in front of a tag: two exclamation marks with a possible name between them, or a
single one before a blank. -/
def tagHandle? (c : Cursor) : Option (String × Cursor) :=
  if c.here != '!' then none
  else if c.peek 1 == ' ' then some ("!", c.step)
  else
    let cs := c.step.ahead isNameChar
    if c.peek (cs.length + 1) == '!' then
      some ("!" ++ .ofList cs ++ "!", c.skip (cs.length + 2))
    else none

def tag? (c : Cursor) : Option (Token × Cursor) := do
  let (handle, suffix, c) ←
    if c.peek 1 == '<' then do
      let (text, c) ← tagText? (c.skip 2)
      if c.here == '>' then pure (none, text, c.step) else none
    else if isGap (c.peek 1) then pure (none, "!", c.step)
    else if (c.step.ahead fun ch => !(isSpaceOrEnd ch)).contains '!' then do
      let (handle, c) ← tagHandle? c
      let (text, c) ← tagText? c
      pure (some handle, text, c)
    else do
      let (text, c) ← tagText? c.step
      pure (some "!", text, c)
  if isSpaceOrEnd c.here then return (.tag handle suffix, c) else none

/-- The version of a version directive; its minor part is not kept. -/
def version? (c : Cursor) : Option (Directive × Cursor) := do
  let (major, c) ← number? (c.skipWhile (· == ' '))
  if c.here != '.' then none
  else
    let (_, c) ← number? c.step
    if isSpaceOrEnd c.here then return (.version major, c) else none

def tagDirective? (c : Cursor) : Option (Directive × Cursor) := do
  let (handle, c) ← tagHandle? (c.skipWhile (· == ' '))
  if c.here != ' ' then none
  else
    let (head, c) ← tagText? (c.skipWhile (· == ' '))
    if isSpaceOrEnd c.here then return (.tag handle head, c) else none

def directive? (c : Cursor) : Option (Token × Cursor) := do
  let (name, c) ← name? c.step
  if !isSpaceOrEnd c.here then none
  else
    let (d, c) ←
      if name == "YAML" then version? c
      else if name == "TAG" then tagDirective? c
      else pure (.other, c.skipWhile (!isEnd ·))
    let c ← c.restOfLine?
    return (.directive d, c)

end InertialOdometry.Document
