import InertialOdometry.Text.DecimalDigit
import InertialOdometry.Value.Conversion

/-!
The arguments of the program. Options have a long name, which may be cut short as long as it stays the
only one that fits, and possibly a letter; a value stands behind its option or behind an equal sign.
Letters without a value may be joined. The last of several values counts.
-/

namespace InertialOdometry

structure Arguments where
  dataDirectory : String
  configFile : String
  outputDirectory : Option String
  maxScans : Option Int
  verbose : Bool

namespace Arguments

inductive Opt where
  | help
  | dataDir
  | config
  | outputDir
  | maxScans
  | verbose
deriving DecidableEq

namespace Opt

def names : List (String × Opt) :=
  [("-h", help), ("--help", help), ("--data-dir", dataDir), ("--config", config),
    ("--output-dir", outputDir), ("--max-scans", maxScans), ("--verbose", verbose), ("-v", verbose)]

def named? (name : String) : Option Opt := (names.find? fun entry => entry.1 == name).map (·.2)

def takesValue : Opt → Bool
  | help | verbose => false
  | _ => true

end Opt

/-- What a word of a command line is: an option, possibly with the text that is joined to it (`short`
tells that it was given by its letter), an unknown option, or anything else. -/
inductive Word where
  | option (opt : Opt) (short : Bool) (joined : Option String)
  | unknown
  | ambiguous
  | separator
  | other (text : String)

/-- Whether a text is a number below zero, and so no option. -/
def isNegativeNumber (s : String) : Bool :=
  let isDigit (c : Char) : Bool := (Text.digitValue? c).isSome
  match s.toList with
  | '-' :: cs =>
    let cs := if cs.getLast? == some '\n' then cs.dropLast else cs
    let rest := cs.dropWhile isDigit
    (rest.isEmpty && !cs.isEmpty) ||
      (rest.head? == some '.' && 1 < rest.length && (rest.drop 1).all isDigit)
  | _ => false

def atEqualSign (s : String) : String × Option String :=
  let cs := s.toList
  let name := cs.takeWhile (· != '=')
  (.ofList name, if cs.contains '=' then some (.ofList (cs.drop (name.length + 1))) else none)

/-- The options that a word may stand for, each with the text joined to it. -/
def candidates (s : String) : List Word :=
  let begins (name part : String) : Bool := part.toList.isPrefixOf name.toList
  if begins s "--" then
    let (part, joined) := atEqualSign s
    (Opt.names.filter fun entry => begins entry.1 part).map fun entry => .option entry.2 false joined
  else
    Opt.names.filterMap fun (name, opt) =>
      if name == .ofList (s.toList.take 2) then
        some (.option opt true (some (.ofList (s.toList.drop 2))))
      else if begins name s then some (.option opt false none)
      else none

def Word.ofText (s : String) : Word :=
  let isShort (name : String) : Bool := name.length == 2
  if s == "--" then .separator
  else if s.toList.head? != some '-' || s.length == 1 then .other s
  else
    match Opt.named? s with
    | some opt => .option opt (isShort s) none
    | none =>
      let (name, joined) := atEqualSign s
      match (if joined.isSome then Opt.named? name else none) with
      | some opt => .option opt (isShort name) joined
      | none =>
        match candidates s with
        | [word] => word
        | _ :: _ => .ambiguous
        | [] => if isNegativeNumber s || s.toList.contains ' ' then .other s else .unknown

/-- The words of a command line. Nothing behind the separator is an option. -/
def wordsOf : List String → List Word
  | [] => []
  | s :: rest =>
    match Word.ofText s with
    | .separator => .separator :: rest.map .other
    | word => word :: wordsOf rest

structure Given where
  dataDir : Option String
  config : Option String
  outputDir : Option String
  maxScans : Option Int
  verbose : Bool
  /-- There was a word that belongs to no option. -/
  surplus : Bool

/-- The exit code for a command line that does not follow the usage. -/
def misuse : Failure := .exit 2

/-- Takes an option that has no value. Help ends the program. -/
def flag (opt : Opt) (g : Given) : Except Failure Given :=
  if opt == .help then .error (.exit 0) else .ok { g with verbose := true }

def value (opt : Opt) (v : String) (g : Given) : Except Failure Given :=
  match opt with
  | .dataDir => .ok { g with dataDir := some v }
  | .config => .ok { g with config := some v }
  | .outputDir => .ok { g with outputDir := some v }
  | .maxScans =>
    match Decimal.readInteger v with
    | .value n => .ok { g with maxScans := some n }
    | _ => .error misuse
  | _ => .ok g

/-- Takes an option to which a text is joined. Behind a letter this may be more letters, if none of the
options has a value. -/
def joined (opt : Opt) (short : Bool) (text : String) (g : Given) : Except Failure Given :=
  if opt.takesValue then value opt text g
  else if !short || text.isEmpty then .error misuse
  else
    match text.toList.mapM fun c => Opt.named? (.ofList ['-', c]) with
    | none => .error misuse
    | some opts => (opt :: opts).foldlM (fun g opt => flag opt g) g

def take : List Word → Given → Except Failure Given
  | [], g => .ok g
  | .option opt short (some text) :: rest, g => do take rest (← joined opt short text g)
  | .option opt _ none :: rest, g =>
    if opt.takesValue then
      match rest with
      | .other text :: rest => do take rest (← value opt text g)
      | _ => .error misuse
    else do take rest (← flag opt g)
  | _ :: rest, g => take rest { g with surplus := true }

def parse (line : List String) : Except Failure Arguments := do
  let words := wordsOf line
  if words.any fun word => match word with | .ambiguous => true | _ => false then throw misuse
  let g ← take words ⟨none, none, none, none, false, false⟩
  match g.dataDir, g.config, g.surplus with
  | some dataDir, some config, false => return ⟨dataDir, config, g.outputDir, g.maxScans, g.verbose⟩
  | _, _, _ => throw misuse

end Arguments

end InertialOdometry
