/-!
Paths of files: names between slashes. A path is kept as its parts, so two spellings that differ in
doubled slashes, in dots that stay where they are, or in a slash at the end are one path.
-/

namespace InertialOdometry

/-- A path. `root` holds the slashes in front of the first name: none where the path starts from the
working directory. -/
structure Path where
  root : String
  parts : List String
deriving DecidableEq

namespace Path

def split (s : String) : List String := s.splitOn "/"

/-- Reads a path. Exactly two slashes in front are not the same as one; more than two are. -/
def ofText (s : String) : Path :=
  let slashes := (s.toList.takeWhile (· == '/')).length
  let root := if slashes = 0 then "" else if slashes = 2 then "//" else "/"
  ⟨root, (split s).filter fun part => part != "" && part != "."⟩

/-- The text of a path; a single dot stands for the working directory. -/
def text (p : Path) : String :=
  if p.parts.isEmpty && p.root.isEmpty then "." else p.root ++ "/".intercalate p.parts

def join (directory inner : Path) : Path :=
  if inner.root.isEmpty then ⟨directory.root, directory.parts ++ inner.parts⟩ else inner

def child (directory : Path) (name : String) : Path := directory.join (ofText name)

/-- Goes up where two dots say so. -/
def resolve (p : Path) : Path :=
  ⟨p.root, (p.parts.foldl (fun above part => if part == ".." then above.drop 1 else part :: above)
    []).reverse⟩

/-- A file name before its last dot, and the ending from that dot on. A dot at the beginning or at the end
of the name starts no ending. -/
def splitEnding (name : String) : String × String :=
  let back := name.toList.reverse
  let ending := back.takeWhile (· != '.')
  let stem := back.drop (ending.length + 1)
  if ending.isEmpty || stem.isEmpty || !back.contains '.' then (name, "")
  else (.ofList stem.reverse, .ofList ('.' :: ending.reverse))

end Path

end InertialOdometry
