import InertialOdometry.Value.Conversion

/-!
Named arguments: a row of entries that gives values to names. Whoever takes arguments says which names
have to be there and which may be; `checkNames` holds the row against that.
-/

namespace InertialOdometry

namespace Value

variable {α : Type}

def textKey? : Value α → Option String
  | text s => some s
  | _ => none

def unknownName? (known : List String) (given : List (Value α × Value α)) : Option String :=
  (given.filterMap fun entry => entry.1.textKey?).find? fun name => !known.contains name

/-- Refuses a row of arguments with a name missing or a name too many. -/
def checkNames (required optional : List String) (given : List (Value α × Value α)) :
    Except Failure Unit :=
  if required.all (fun name => (lookup? given name).isSome) &&
      given.all (fun entry => entry.1.textKey?.any fun name => (required ++ optional).contains name)
  then .ok ()
  else .error .badArguments

def argument (given : List (Value α × Value α)) (name : String) (default : Value α) : Value α :=
  (lookup? given name).getD default

end Value

end InertialOdometry
