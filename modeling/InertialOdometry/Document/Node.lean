import InertialOdometry.Document.Kind
import InertialOdometry.Document.Lexer
import InertialOdometry.Document.Stamp

/-!
The tree of nodes that the tokens of a document describe. Abbreviated tags are spelled out, plain words
are given the kind of their spelling, and a reference is replaced by the node that it refers to.
-/

namespace InertialOdometry.Document

inductive Node where
  | scalar (kind : Kind) (text : String)
  | sequence (kind : Kind) (items : List Node)
  | mapping (kind : Kind) (entries : List (Node × Node))

def Kind.ofWord (s : String) : Kind :=
  if isTrueWord s || isFalseWord s then bool
  else if isFloatWord s then float
  else if isIntWord s then int
  else if s == "<<" then merge
  else if isNullWord s then null
  else if isStampWord s then timestamp
  else if s == "=" then value
  else text

def Node.absent : Node := .scalar .null ""

/-- What the parser knows: the tokens ahead, the abbreviations for tags, and the nodes that can be
referred to. -/
structure ParserState where
  tokens : List Token
  handles : List (String × String)
  anchors : List (String × Node)

/-- A step of the parser. There is no outcome where the tokens do not follow the rules. -/
abbrev Parser := StateT ParserState Option

namespace Parser

def peek : Parser (Option Token) := return (← get).tokens.head?

def advance : Parser Unit := modify fun s => { s with tokens := s.tokens.drop 1 }

def ahead (p : Token → Bool) : Parser Bool := return ((← peek).any p)

def isKey : Token → Bool
  | .key => true
  | _ => false

def isValue : Token → Bool
  | .value => true
  | _ => false

def isBlockEnd : Token → Bool
  | .blockEnd => true
  | _ => false

def isBlockEntry : Token → Bool
  | .blockEntry => true
  | _ => false

def isFlowEntry : Token → Bool
  | .flowEntry => true
  | _ => false

def isSequenceEnd : Token → Bool
  | .flowSequenceEnd => true
  | _ => false

def isMappingEnd : Token → Bool
  | .flowMappingEnd => true
  | _ => false

def expect (p : Token → Bool) : Parser Unit := do
  if ← ahead p then advance else failure

def accept (p : Token → Bool) : Parser Bool := do
  if ← ahead p then advance; return true else return false

def anchor? : Parser (Option String) := do
  match ← peek with
  | some (.anchor name) => advance; return some name
  | _ => return none

def tag? : Parser (Option String) := do
  match ← peek with
  | some (.tag none suffix) => advance; return some suffix
  | some (.tag (some handle) suffix) =>
    advance
    match (← get).handles.find? (·.1 == handle) with
    | some (_, head) => return some (head ++ suffix)
    | none => failure
  | _ => return none

/-- Anchor and tag in front of a node, in either order. -/
def properties : Parser (Option String × Option String) := do
  match ← anchor? with
  | some name => return (some name, ← tag?)
  | none =>
    let tag ← tag?
    return (← anchor?, tag)

def define (name : Option String) (node : Node) : Parser Node := do
  match name with
  | none => return node
  | some name =>
    modify fun s => { s with anchors := (name, node) :: s.anchors }
    return node

/-- Makes an anchor known before its node is. A name is given once; a node that refers to itself from
within is cut off there. -/
def announce (name : Option String) : Parser Unit := do
  let known := (← get).anchors
  if name.any fun name => known.any (·.1 == name) then failure
  else discard (define name .absent)

/-- The kind of a node: that of its tag, or else the given one. A lone exclamation mark is no tag. -/
def kindOf (tag : Option String) (untagged : Kind) : Kind :=
  match tag with
  | none | some "!" => untagged
  | some tag => .ofTag tag

/-- The kind of a scalar. Text in quotes needs a mark to be taken for a word. -/
def scalarKind (tag : Option String) (isPlain : Bool) (text : String) : Kind :=
  kindOf tag (if isPlain || tag == some "!" then .ofWord text else .text)

mutual

/-- A node. `block` tells that collections without brackets may stand here, `indentless` that the
entries of a sequence may stand here without further indentation. -/
def node (block indentless : Bool) : Nat → Parser Node
  | 0 => failure
  | fuel + 1 => do
    match ← peek with
    | some (.alias name) =>
      advance
      match (← get).anchors.find? (·.1 == name) with
      | some (_, node) => return node
      | none => failure
    | _ =>
      let (name, tag) ← properties
      announce name
      let content : Parser Node := do
        match ← peek, block with
        | some .blockEntry, _ =>
          if indentless then return .sequence (kindOf tag .sequence) (← indentlessItems fuel)
          else untold name tag
        | some (.scalar text isPlain), _ =>
          advance
          return .scalar (scalarKind tag isPlain text) text
        | some .flowSequenceStart, _ =>
          advance
          return .sequence (kindOf tag .sequence) (← flowItems true fuel)
        | some .flowMappingStart, _ =>
          advance
          return .mapping (kindOf tag .mapping) (← flowEntries true fuel)
        | some .blockSequenceStart, true =>
          advance
          return .sequence (kindOf tag .sequence) (← blockItems fuel)
        | some .blockMappingStart, true =>
          advance
          return .mapping (kindOf tag .mapping) (← blockEntries fuel)
        | _, _ => untold name tag
      define name (← content)
where
  /-- A node with properties and no content. -/
  untold (name tag : Option String) : Parser Node :=
    if name.isSome || tag.isSome then return .scalar (scalarKind tag true "") ""
    else failure

/-- A node, unless one of some tokens shows that it is left out. -/
def nodeUnless (block indentless : Bool) (stops : List (Token → Bool)) : Nat → Parser Node
  | 0 => failure
  | fuel + 1 => do
    if ← ahead fun t => stops.any fun p => p t then return .absent
    else node block indentless fuel

def blockItems : Nat → Parser (List Node)
  | 0 => failure
  | fuel + 1 => do
    if ← accept isBlockEntry then
      let item ← nodeUnless true false [isBlockEntry, isBlockEnd] fuel
      return item :: (← blockItems fuel)
    else
      expect isBlockEnd
      return []

/-- The items of a sequence that is not indented beyond its key. -/
def indentlessItems : Nat → Parser (List Node)
  | 0 => failure
  | fuel + 1 => do
    if ← accept isBlockEntry then
      let item ← nodeUnless true false [isBlockEntry, isKey, isValue, isBlockEnd] fuel
      return item :: (← indentlessItems fuel)
    else return []

def blockEntries : Nat → Parser (List (Node × Node))
  | 0 => failure
  | fuel + 1 => do
    let stops := [isKey, isValue, isBlockEnd]
    if ← accept isKey then
      let key ← nodeUnless true true stops fuel
      let value ← if ← accept isValue then nodeUnless true true stops fuel else pure .absent
      return (key, value) :: (← blockEntries fuel)
    else
      expect isBlockEnd
      return []

/-- The items of a sequence in brackets, to its end. A key makes an item a mapping of one entry. -/
def flowItems (first : Bool) : Nat → Parser (List Node)
  | 0 => failure
  | fuel + 1 => do
    if ← accept isSequenceEnd then return []
    else
      if !first then expect isFlowEntry
      if ← accept isKey then
        let key ← nodeUnless false false [isValue, isFlowEntry, isSequenceEnd] fuel
        let value ←
          if ← accept isValue then nodeUnless false false [isFlowEntry, isSequenceEnd] fuel
          else pure .absent
        return .mapping .mapping [(key, value)] :: (← flowItems false fuel)
      else if ← accept isSequenceEnd then return []
      else
        let item ← node false false fuel
        return item :: (← flowItems false fuel)

def flowEntries (first : Bool) : Nat → Parser (List (Node × Node))
  | 0 => failure
  | fuel + 1 => do
    if ← accept isMappingEnd then return []
    else
      if !first then expect isFlowEntry
      if ← accept isKey then
        let key ← nodeUnless false false [isValue, isFlowEntry, isMappingEnd] fuel
        let value ←
          if ← accept isValue then nodeUnless false false [isFlowEntry, isMappingEnd] fuel
          else pure .absent
        return (key, value) :: (← flowEntries false fuel)
      else if ← accept isMappingEnd then return []
      else
        let key ← node false false fuel
        return (key, .absent) :: (← flowEntries false fuel)

end

/-- The directives in front of a document. There is one version at most, and it is of the first kind;
an abbreviation is given once. -/
def directives : Nat → Bool → Parser Unit
  | 0, _ => failure
  | fuel + 1, versioned => do
    match ← peek with
    | some (.directive d) =>
      advance
      match d with
      | .version major =>
        if versioned || major != 1 then failure else directives fuel true
      | .tag handle head =>
        if (← get).handles.any (·.1 == handle) then failure
        else
          modify fun s => { s with handles := (handle, head) :: s.handles }
          directives fuel versioned
      | .other => directives fuel versioned
    | _ => return ()

def commonHandles : List (String × String) := [("!", "!"), ("!!", Kind.tagHead)]

def isDocumentStart : Token → Bool
  | .documentStart => true
  | _ => false

def isDocumentEnd : Token → Bool
  | .documentEnd => true
  | _ => false

def isOutside : Token → Bool
  | .directive _ | .documentStart | .documentEnd => true
  | _ => false

/-- Adds the common abbreviations that no directive has given. -/
def addCommonHandles : Parser Unit :=
  modify fun s =>
    { s with handles := s.handles ++ commonHandles.filter fun h => !s.handles.any (·.1 == h.1) }

/-- The only document of a text; the null value where there is none. A document without a mark at its
beginning has content; behind the mark it may be left out. -/
def document (fuel : Nat) : Parser Node := do
  if (← peek).isNone then return .absent
  let marked ← ahead fun t => isOutside t && !isDocumentEnd t
  if marked then
    directives fuel false
    expect isDocumentStart
  addCommonHandles
  let root ←
    if marked && ((← peek).isNone || (← ahead isOutside)) then pure .absent
    else node true false fuel
  modify fun s => { s with tokens := s.tokens.dropWhile isDocumentEnd }
  if (← peek).isNone then return root else failure

end Parser

def node? (text : List Char) : Option Node := do
  let tokens ← tokens? text
  let fuel := 4 * tokens.length + 8
  let (root, _) ← (Parser.document fuel).run ⟨tokens, [], []⟩
  return root

end InertialOdometry.Document
