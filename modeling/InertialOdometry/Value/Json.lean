import InertialOdometry.Text.Quoted
import InertialOdometry.Value.Printing

/-!
Values as JSON text: every part on a line of its own, two columns
deeper than what it belongs to. The values that the notation has no form for are written as texts.
-/

namespace InertialOdometry.Value

variable {α : Type} [Scalar α]

def jsonChar (c : Char) : List Char :=
  if c == '"' then ['\\', '"']
  else if c == '\\' then ['\\', '\\']
  else if c == '\n' then ['\\', 'n']
  else if c == '\r' then ['\\', 'r']
  else if c == '\t' then ['\\', 't']
  else if c == '\x08' then ['\\', 'b']
  else if c == '\x0c' then ['\\', 'f']
  else if c.toNat < 0x20 then '\\' :: 'u' :: Text.hexadecimal 4 c.toNat
  else [c]

def jsonText (s : String) : String := .ofList ('"' :: s.toList.flatMap jsonChar ++ ['"'])

def jsonScalar (x : α) : String :=
  if Scalar.isNaN x then "NaN"
  else if Scalar.isFinite x then Scalar.text x
  else if x < Scalar.zero then "-Infinity"
  else "Infinity"

def jsonParts (depth : Nat) (left right : String) (parts : List String) : String :=
  let line (n : Nat) : String := "\n" ++ .ofList (List.replicate (2 * n) ' ')
  if parts.isEmpty then left ++ right
  else left ++ line (depth + 1) ++ ("," ++ line (depth + 1)).intercalate parts ++ line depth ++ right

mutual

def json (depth : Nat) : Value α → String
  | null => "null"
  | bool b => if b then "true" else "false"
  | int n => toString n
  | number x => jsonScalar x
  | text s => jsonText s
  | list xs | tuple xs | set xs => jsonParts depth "[" "]" (jsonAll (depth + 1) xs)
  | map entries => jsonParts depth "\x7b" "\x7d" (jsonEntries (depth + 1) entries)
  | v => jsonText v.plain

def jsonAll (depth : Nat) : List (Value α) → List String
  | [] => []
  | x :: xs => x.json depth :: jsonAll depth xs

def jsonEntries (depth : Nat) : List (Value α × Value α) → List String
  | [] => []
  | (key, value) :: rest =>
    (jsonText key.plain ++ ": " ++ value.json depth) :: jsonEntries depth rest

end

end InertialOdometry.Value
