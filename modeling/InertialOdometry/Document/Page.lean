import InertialOdometry.Document.Style
import InertialOdometry.Text.Quoted

/-!
The page that a document is written on: the lines so far and the place of the pen. Each primitive
appends to the page; a line is broken at a blank once it has grown past eighty characters.
-/

namespace InertialOdometry.Document

/-- What is written, last character first, and where the pen stands. -/
structure Page where
  written : List Char
  column : Nat
  /-- Nothing needs to be put between what is written and what comes next. -/
  spaced : Bool
  /-- Nothing but signs of the indentation stands in this line. -/
  indenting : Bool

namespace Page

def blank : Page := ⟨[], 0, true, true⟩

def text (p : Page) : String := .ofList p.written.reverse

/-- The number of characters after which a line is broken. -/
def width : Nat := 80

def write (cs : List Char) (p : Page) : Page :=
  { p with written := cs.reverse ++ p.written, column := p.column + cs.length }

def lineBreak (p : Page) (mark : Char := '\n') : Page :=
  ⟨mark :: p.written, 0, true, true⟩

/-- Moves the pen to a column, in a new line unless the pen stands in front of that column with nothing
but indentation before it. -/
def indentTo (indent : Nat) (p : Page) : Page :=
  let fresh := !p.indenting || indent < p.column || (p.column == indent && !p.spaced)
  let p := if fresh then p.lineBreak else p
  if p.column < indent then { p.write (List.replicate (indent - p.column) ' ') with spaced := true }
  else p

/-- Writes a sign, apart from what stands before it if `apart` asks for it. -/
def sign (s : String) (apart : Bool) (p : Page) (indents spacing : Bool := false) : Page :=
  let cs := s.toList
  { p.write (if p.spaced || !apart then cs else ' ' :: cs) with
    spaced := spacing, indenting := p.indenting && indents }

def inText (p : Page) : Page := { p with spaced := false, indenting := false }

def rowOf (p : Char → Bool) (cs : List Char) : List Char × List Char :=
  (cs.takeWhile p, cs.dropWhile p)

/-- Writes a text without line ends as it stands. A single blank becomes a line end where the line is
too long. -/
def plainRest (indent : Nat) (split : Bool) (p : Page) (fuel : Nat) (cs : List Char) : Page :=
  match fuel, cs with
  | 0, _ | _, [] => p
  | fuel + 1, ' ' :: rest =>
    let (more, after) := rowOf (· == ' ') rest
    if split && more.isEmpty && width < p.column then
      plainRest indent split (p.indentTo indent).inText fuel after
    else plainRest indent split (p.write (' ' :: more)) fuel after
  | fuel + 1, cs =>
    let (word, after) := rowOf (· != ' ') cs
    plainRest indent split (p.write word) fuel after

def plain (indent : Nat) (split : Bool) (cs : List Char) (p : Page) : Page :=
  if cs.isEmpty then p
  else
    let p := if p.spaced then p else p.write [' ']
    plainRest indent split p.inText cs.length cs

/-- Writes what stands between single quotes. A quote is doubled; a row of line ends is written with one
more, which reading takes away again. -/
def singleRest (indent : Nat) (split : Bool) (p : Page) (fuel : Nat) (cs : List Char) : Page :=
  match fuel, cs with
  | 0, _ | _, [] => p
  | fuel + 1, '\'' :: rest => singleRest indent split (p.write ['\'', '\'']) fuel rest
  | fuel + 1, ' ' :: rest =>
    let (more, after) := rowOf (· == ' ') rest
    if split && more.isEmpty && width < p.column && !after.isEmpty then
      singleRest indent split (p.indentTo indent) fuel after
    else singleRest indent split (p.write (' ' :: more)) fuel after
  | fuel + 1, c :: rest =>
    if isBreak c then
      let (more, after) := rowOf isBreak rest
      let p := if c == '\n' then p.lineBreak else p
      let p := (c :: more).foldl (fun p mark => p.lineBreak mark) p
      singleRest indent split (p.indentTo indent) fuel after
    else
      let (word, after) := rowOf (fun c => !(c == ' ' || c == '\'' || isBreak c)) (c :: rest)
      singleRest indent split (p.write word) fuel after

/-- Writes a text between single quotes. A blank at the very beginning is never broken at. -/
def single (indent : Nat) (split : Bool) (cs : List Char) (p : Page) : Page :=
  let p := p.sign "'" true
  let (lead, rest) := rowOf (· == ' ') cs
  (singleRest indent split (p.write lead) rest.length rest).sign "'" false

def escape (c : Char) : List Char :=
  if isShown c && c != '"' && c != '\\' then [c]
  else
    match ("\x00\x07\x08\t\n\x0b\x0c\r\x1b\"\\\u0085\u00a0\u2028\u2029".toList.zip
      "0abtnvfre\"\\N_LP".toList).find? (·.1 == c) with
    | some (_, letter) => ['\\', letter]
    | none =>
      let n := c.toNat
      let hex (width : Nat) : List Char := (Text.hexadecimal width n).map Char.toUpper
      if n < 0x100 then '\\' :: 'x' :: hex 2
      else if n < 0x10000 then '\\' :: 'u' :: hex 4
      else '\\' :: 'U' :: hex 8

/-- Breaks a line within double quotes: a backslash in front of the line end, and one more where the next
line begins with a blank. -/
def continued (indent : Nat) (rest : List Char) (p : Page) : Page :=
  let p := ((p.write ['\\']).indentTo indent).inText
  if rest.head? == some ' ' then p.write ['\\'] else p

/-- Writes what stands between double quotes. `pending` are the characters, last one first, that are not
yet on the page, `first` tells that the text begins here. A line may be broken at a blank and behind an
escape, unless only one character is left. -/
def doubleRest (indent : Nat) (split : Bool) (p : Page) (pending : List Char) (first : Bool) :
    List Char → Page
  | [] => p.write pending.reverse
  | c :: rest =>
    let shown := escape c == [c]
    let p := if shown then p else (p.write pending.reverse).write (escape c)
    let waiting := if shown then pending else []
    let mayBreak := !first && !rest.isEmpty && (c == ' ' || !shown || waiting.isEmpty)
    if split && mayBreak && width < p.column + waiting.length - (if shown then 0 else 1) then
      let ahead := if shown then c :: rest else rest
      doubleRest indent split ((p.write waiting.reverse).continued indent ahead)
        (if shown then [c] else []) false rest
    else doubleRest indent split p (if shown then c :: waiting else []) false rest

def double (indent : Nat) (split : Bool) (cs : List Char) (p : Page) : Page :=
  (doubleRest indent split (p.sign "\"" true) [] true cs).sign "\"" false

def literal (indent : Nat) (lines : List (List Char)) (p : Page) : Page :=
  lines.foldl (fun p line => ((p.indentTo indent).write line).lineBreak) (p.sign "|" true).lineBreak

end Page

end InertialOdometry.Document
