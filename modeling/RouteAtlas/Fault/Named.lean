import RouteAtlas.Fault

/-!
# Faults by name

A reader or an observer raises a fault by its name with details. Some names ask for details of a
certain form, and raising them with others is a fault of its own.
-/

namespace RouteAtlas.Fault

/-- The fault of details of a wrong type. -/
def wrongType (message : String) : Fault := .other "TypeError" [.text message]

/-- The fault of details with a wrong value. -/
def wrongValue (message : String) : Fault := .other "ValueError" [.text message]

/-- The kind of an error of the operating system that is given without a kind of its own: its number
decides, where there is one with a wording. -/
def kindOf : List Detail → SystemKind
  | .number n :: _ :: rest => if rest.length ≤ 3 then .ofNumber n else .other
  | _ => .other

/-- Whether the name stands for any error of the operating system. -/
def isSystemName (name : String) : Bool := ["OSError", "IOError", "EnvironmentError"].contains name

/-- Whether a number fits into a machine word. -/
def fitsWord (n : Int) : Bool := -9223372036854775808 ≤ n && n ≤ 9223372036854775807

/-- An error of the operating system. A number of written characters has to fit into a word. -/
def system? (kind : SystemKind) (details : List Detail) : Except Fault Fault :=
  let written : Option Int :=
    match details with
    | [_, _, .number n] | [_, _, .number n, _] | [_, _, .number n, _, _] => some n
    | _ => none
  if kind = .blocking ∧ !written.all fitsWord then
    .error (wrongValue "cannot fit 'int' into an index-sized integer")
  else .ok (.system kind details)

/-- Refuses a wrong number of parts. -/
def countParts (least most n : Nat) : Except Fault Unit :=
  let wrong (bound : String) (limit : Nat) : Except Fault Unit :=
    .error (wrongType ("function takes " ++ bound ++ " " ++ toString limit ++ " arguments ("
      ++ toString n ++ " given)"))
  if least = most ∧ n ≠ least then wrong "exactly" least
  else if n < least then wrong "at least" least
  else if most < n then wrong "at most" most
  else .ok ()

/-- Checks the second of two details of a fault about a text that is no program: it gives the place
in four parts, or in six with its end. -/
def checkPlace : List Detail → Except Fault Unit
  | [_, .number _] => .error (.notIterable "int")
  | [_, .text place] => do
    countParts 4 6 place.length
    if place.length = 5 then
      .error (wrongType "end_offset must be provided when end_lineno is provided")
  | _ => .ok ()

/-- What a detail has to be. -/
inductive Form where
  | text
  | word
deriving DecidableEq, Repr

/-- Checks details against the forms that they have to have, the `n`th one first. -/
def checkForms (n : Nat) : List Form → List Detail → Except Fault Unit
  | .text :: forms, .text _ :: rest => checkForms (n + 1) forms rest
  | .text :: _, .number _ :: _ =>
    .error (wrongType ("argument " ++ toString n ++ " must be str, not int"))
  | .word :: forms, .number k :: rest =>
    if fitsWord k then checkForms (n + 1) forms rest
    else .error (.other "OverflowError" [.text "Python int too large to convert to C ssize_t"])
  | .word :: _, .text _ :: _ =>
    .error (wrongType "'str' object cannot be interpreted as an integer")
  | _, _ => .ok ()

/-- Checks that there are as many details as forms, and then their forms. -/
def checkAll (forms : List Form) (details : List Detail) : Except Fault Unit := do
  countParts forms.length forms.length details.length
  checkForms 1 forms details

/-- Why a group of faults cannot be made: its second detail would be faults, and no detail is. -/
def noGroup (details : List Detail) : Fault :=
  match details with
  | [.number _, _] => wrongType "BaseExceptionGroup.__new__() argument 1 must be str, not int"
  | [.text _, .number _] => wrongType "second argument (exceptions) must be a sequence"
  | [.text _, .text s] =>
    if s.isEmpty then wrongValue "second argument (exceptions) must be a non-empty sequence"
    else wrongValue "Item 0 of second argument (exceptions) is not an exception"
  | _ =>
    wrongType ("BaseExceptionGroup.__new__() takes exactly 2 arguments (" ++ toString details.length
      ++ " given)")

/-- The fault with a name that stands for no kind of its own. -/
def otherNamed (name : String) (details : List Detail) : Except Fault Fault := do
  if isSyntaxName name then checkPlace details
  else if name = "UnicodeEncodeError" then checkAll [.text, .text, .word, .word, .text] details
  else if name = "UnicodeTranslateError" then checkAll [.text, .word, .word, .text] details
  else if name = "ExceptionGroup" ∨ name = "BaseExceptionGroup" then .error (noGroup details)
  return .other name details

/-- The fault with a name, as a reader or an observer raises it. -/
def named (name : String) (details : List Detail) : Except Fault Fault :=
  if isSystemName name then system? (kindOf details) details
  else
    match SystemKind.all.find? (·.name == name), Stop.all.find? (·.name == name) with
    | some kind, _ => system? kind details
    | none, some kind => .ok (.stop kind details)
    | none, none =>
      if name = "MemoryError" then .ok (.outOfMemory details)
      else if name = "KeyError" then .ok (.missingKey details)
      else otherNamed name details

end RouteAtlas.Fault
