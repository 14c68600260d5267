import RouteAtlas.CommandLine.Host

/-!
# Arguments

The words of a command line, read against the options that a command knows. An option has a long
name and perhaps a letter, and may take a value; after two dashes nothing is an option any more.
-/

namespace RouteAtlas.CommandLine

/-- Why a command line is refused. -/
inductive UsageError where
  | unknownOption (name : String)
  | missingValue (option : String)
  | unexpectedValue (option : String)
  | missingOption (option : String)
  | unexpectedWord (word : String)
  | unknownCommand (name : String)
  | noDirectory (path : String)
deriving DecidableEq, Repr

/-- What a user is told about a refused command line. -/
def UsageError.message : UsageError → String
  | .unknownOption name => "No such option: " ++ name
  | .missingValue option => "Option '" ++ option ++ "' requires an argument."
  | .unexpectedValue option => "Option '" ++ option ++ "' does not take a value."
  | .missingOption option => "Missing option '" ++ option ++ "'."
  | .unexpectedWord word => "Got unexpected extra argument (" ++ word ++ ")"
  | .unknownCommand name => "No such command '" ++ name ++ "'."
  | .noDirectory path => "Directory '" ++ path ++ "' does not exist."

/-- What a command line says: the options in order, and the other words in order. -/
structure Arguments where
  given : List Given := []
  words : List String := []
deriving DecidableEq, Repr

namespace Arguments

/-- The first given option among some. -/
def firstOf (a : Arguments) (longs : List String) : Option String :=
  (a.given.find? fun g => longs.contains g.long).map Given.long

end Arguments

/-- Options read from one word; the last of them may still wait for its value. -/
structure Reading where
  given : List Given := []
  waiting : Option Switch := none

/-- Reads letters that stand together after a dash. A letter whose option takes a value takes the
rest of the word, or else the next word. -/
def readLetters (known : List Switch) : List Char → Except UsageError Reading
  | [] => .ok {}
  | c :: rest =>
    match known.find? (·.short == some c) with
    | none => .error (.unknownOption (String.ofList ['-', c]))
    | some o =>
      if o.takesValue then
        if rest.isEmpty then .ok { waiting := some o }
        else .ok { given := [⟨o.long, some (String.ofList rest)⟩] }
      else
        match readLetters known rest with
        | .ok r => .ok { r with given := ⟨o.long, none⟩ :: r.given }
        | .error e => .error e

/-- The name and, after an equals sign, the value in a word. -/
def nameAndValue (word : List Char) : String × Option String :=
  let name := String.ofList (word.takeWhile (· ≠ '='))
  match word.dropWhile (· ≠ '=') with
  | [] => (name, none)
  | _ :: value => (name, some (String.ofList value))

/-- Reads a word that starts with a dash. -/
def readOption (known : List Switch) (word : String) : Except UsageError Reading :=
  let (name, value) := nameAndValue word.toList
  match known.find? (·.long == name), value with
  | some o, none =>
    if o.takesValue then .ok { waiting := some o } else .ok { given := [⟨o.long, none⟩] }
  | some o, some v =>
    if o.takesValue then .ok { given := [⟨o.long, some v⟩] } else .error (.unexpectedValue o.long)
  | none, _ =>
    match word.toList with
    | '-' :: '-' :: _ => .error (.unknownOption name)
    | letters => readLetters known (letters.drop 1)

/-- Reads words. If options may not follow other words, the first other word ends the options. -/
def readWords (known : List Switch) (mixed : Bool) (waiting : Option Switch) :
    List String → Except UsageError Arguments
  | [] =>
    match waiting with
    | some o => .error (.missingValue o.long)
    | none => .ok {}
  | word :: rest =>
    match waiting with
    | some o => do
      let a ← readWords known mixed none rest
      return { a with given := ⟨o.long, some word⟩ :: a.given }
    | none =>
      if word = "--" then .ok { words := rest }
      else if looksLikeOption word then do
        let r ← readOption known word
        let a ← readWords known mixed r.waiting rest
        return { a with given := r.given ++ a.given }
      else if mixed then do
        let a ← readWords known mixed none rest
        return { a with words := word :: a.words }
      else .ok { words := word :: rest }

/-- Reads the words of a command line. -/
def readArguments (known : List Switch) (mixed : Bool) (words : List String) :
    Except UsageError Arguments :=
  readWords known mixed none words

end RouteAtlas.CommandLine
