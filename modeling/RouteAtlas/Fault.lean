import RouteAtlas.Json.Reader
import RouteAtlas.Moment
import RouteAtlas.Report
import RouteAtlas.Text.Quoted
import RouteAtlas.Text.Utf8

/-!
# Faults

A fault is why an operation failed, as a cause. `Fault.name` and `Fault.text` give the wording that
logs, failures and messages show. A fault that is no ordinary one (`Fault.isFatal`) is a request to
stop: nothing in this library swallows it.

Two things are left out. A program cannot write a number with more than `Json.mostDigits` digits, so that
asking for the text of a fault with such a detail fails in its turn: numbers among details are assumed to
have no more digits than that. And of a text that is no JSON value it is not told where reading stops and
what is expected there.
-/

namespace RouteAtlas

/-- A detail given with a fault. -/
inductive Detail where
  | text (s : String)
  /-- A whole number, assumed to have `Json.mostDigits` digits at most. -/
  | number (n : Int)
  /-- Anything else that shows everywhere alike. -/
  | literal (shown : String)
deriving DecidableEq, Repr

namespace Detail

/-- The detail as plain text. -/
def shown : Detail → String
  | .text s => s
  | .number n => toString n
  | .literal s => s

/-- The detail with a text in quotes. -/
def quoted : Detail → String
  | .text s => Text.quoted s
  | .number n => toString n
  | .literal s => s

/-- Details in parentheses. -/
def tuple (details : List Detail) : String :=
  match details with
  | [d] => "(" ++ d.quoted ++ ",)"
  | _ => "(" ++ String.intercalate ", " (details.map quoted) ++ ")"

end Detail

/-- The kinds of faults that the operating system reports. -/
inductive SystemKind where
  | fileNotFound
  | notADirectory
  | isADirectory
  | permission
  | timeout
  | interrupted
  | blocking
  | childProcess
  | processLookup
  | fileExists
  | brokenPipe
  | connection
  | connectionAborted
  | connectionReset
  | connectionRefused
  | other
deriving DecidableEq, Repr

namespace SystemKind

/-- The kind that an error number stands for. -/
def ofNumber (n : Int) : SystemKind :=
  if n = 1 ∨ n = 13 then .permission
  else if n = 2 then .fileNotFound
  else if n = 3 then .processLookup
  else if n = 4 then .interrupted
  else if n = 10 then .childProcess
  else if n = 11 ∨ n = 114 ∨ n = 115 then .blocking
  else if n = 17 then .fileExists
  else if n = 20 then .notADirectory
  else if n = 21 then .isADirectory
  else if n = 32 ∨ n = 108 then .brokenPipe
  else if n = 103 then .connectionAborted
  else if n = 104 then .connectionReset
  else if n = 110 then .timeout
  else if n = 111 then .connectionRefused
  else .other

/-- The name of a kind. -/
def name : SystemKind → String
  | .fileNotFound => "FileNotFoundError"
  | .notADirectory => "NotADirectoryError"
  | .isADirectory => "IsADirectoryError"
  | .permission => "PermissionError"
  | .timeout => "TimeoutError"
  | .interrupted => "InterruptedError"
  | .blocking => "BlockingIOError"
  | .childProcess => "ChildProcessError"
  | .processLookup => "ProcessLookupError"
  | .fileExists => "FileExistsError"
  | .brokenPipe => "BrokenPipeError"
  | .connection => "ConnectionError"
  | .connectionAborted => "ConnectionAbortedError"
  | .connectionReset => "ConnectionResetError"
  | .connectionRefused => "ConnectionRefusedError"
  | .other => "OSError"

/-- Every kind. -/
def all : List SystemKind :=
  [.fileNotFound, .notADirectory, .isADirectory, .permission, .timeout, .interrupted, .blocking,
    .childProcess, .processLookup, .fileExists, .brokenPipe, .connection, .connectionAborted,
    .connectionReset, .connectionRefused, .other]

end SystemKind

/-- The errors of the file system that the project tree knows. -/
inductive FileError where
  | noEntry
  | exists
  | notADirectory
  | isADirectory
  | invalidArgument
  | nameTooLong
  | notEmpty
  | tooManyLinks
deriving DecidableEq, Repr

namespace FileError

/-- The number of an error. -/
def number : FileError → Int
  | .noEntry => 2
  | .exists => 17
  | .notADirectory => 20
  | .isADirectory => 21
  | .invalidArgument => 22
  | .nameTooLong => 36
  | .notEmpty => 39
  | .tooManyLinks => 40

/-- The wording of an error. -/
def text : FileError → String
  | .noEntry => "No such file or directory"
  | .exists => "File exists"
  | .notADirectory => "Not a directory"
  | .isADirectory => "Is a directory"
  | .invalidArgument => "Invalid argument"
  | .nameTooLong => "File name too long"
  | .notEmpty => "Directory not empty"
  | .tooManyLinks => "Too many levels of symbolic links"

end FileError

/-- The requests to stop, which are no ordinary faults. -/
inductive Stop where
  | interrupt
  | exit
  | generatorExit
  | other
deriving DecidableEq, Repr

/-- The name of a request to stop. -/
def Stop.name : Stop → String
  | .interrupt => "KeyboardInterrupt"
  | .exit => "SystemExit"
  | .generatorExit => "GeneratorExit"
  | .other => "BaseException"

/-- Every request to stop. -/
def Stop.all : List Stop := [.interrupt, .exit, .generatorExit, .other]

/-- Why an operation failed. -/
inductive Fault where
  /-- The operating system reports an error. -/
  | system (kind : SystemKind) (details : List Detail)
  /-- Bytes, from `start` to before `finish`, are no UTF-8 text. Whoever raises the fault gives the
  range, which need not lie within the bytes. -/
  | undecodable (bytes : List UInt8) (start finish : Int) (reason : String)
  /-- Memory ran out. -/
  | outOfMemory (details : List Detail)
  /-- A key is missing. -/
  | missingKey (details : List Detail)
  /-- A report for the user, with the fault behind it. -/
  | report (r : Report) (behind : Option Fault)
  /-- A request to stop. -/
  | stop (kind : Stop) (details : List Detail)
  /-- A record of the file at `path` would have no routes. -/
  | emptyRecord (path : String)
  /-- No member of an enumeration has the value. -/
  | notAMember (value enumeration : String)
  /-- A value of this type cannot be looked up. -/
  | unhashable (type : String)
  /-- A value of this type has no items. -/
  | notIterable (type : String)
  /-- A value of this type has no such part. -/
  | lacks (type part : String)
  /-- A text does not write bytes: the character at this place is no hexadecimal digit. -/
  | notHexadecimal (place : Nat)
  /-- JSON has no form for values of this type. -/
  | noJsonForm (type : String)
  /-- JSON has no form for names of this type. -/
  | noJsonName (type : String)
  /-- A text is no number. -/
  | notANumber (text : String) (fractional : Bool)
  /-- A floating-point number is infinite or none at all, and so has no whole part. -/
  | notFinite (isNaN : Bool)
  /-- The steps of a range have no length. -/
  | zeroStep
  /-- Numbers make no moment. -/
  | notAMoment (why : Moment.Refusal)
  /-- A whole number is beyond every floating-point number. -/
  | intTooLarge
  /-- A text is no JSON value. Where reading stops is left out. -/
  | malformedJson
  /-- A whole number has more digits than are converted. -/
  | tooManyDigits (digits : Nat)
  /-- A whole number has more digits than are written. -/
  | tooLongToWrite
  /-- A JSON text is nested more deeply than is followed. -/
  | tooDeep (bracket : Json.Bracket)
  /-- A text with these code points holds half of a surrogate pair, which no output can show. -/
  | unpairedHalf (codes : List Nat)
  /-- Symbolic links lead from a path back to themselves. -/
  | linkLoop (path : String)
  /-- A path holds a null character. -/
  | nullInPath
  /-- Any other fault of a reader or an observer, by its name. -/
  | other (name : String) (details : List Detail)
deriving Repr, Inhabited

namespace Fault

/-- The fault of a file operation on a path. -/
def file (e : FileError) (path : String) : Fault :=
  .system (SystemKind.ofNumber e.number) [.number e.number, .text e.text, .text path]

/-- The fault of a file operation on two paths. -/
def fileWith (e : FileError) (path path' : String) : Fault :=
  .system (SystemKind.ofNumber e.number)
    [.number e.number, .text e.text, .text path, .number 0, .text path']

/-- The fault of bytes that are no text. -/
def ofRefusal (bytes : List UInt8) (r : Text.Utf8.Refusal) : Fault :=
  .undecodable bytes r.start (r.start + r.width) r.reason.text

/-- The fault of a text that is no JSON value. -/
def ofJson : Json.Refusal → Fault
  | .malformed => .malformedJson
  | .tooManyDigits n => .tooManyDigits n
  | .tooDeep b => .tooDeep b

/-- Whether the fault is a request to stop. -/
def isFatal : Fault → Bool
  | .stop .. => true
  | _ => false

/-- The name of the kind of fault. -/
def name : Fault → String
  | .system kind _ => kind.name
  | .undecodable .. => "UnicodeDecodeError"
  | .outOfMemory _ => "MemoryError"
  | .missingKey _ => "KeyError"
  | .report r _ => r.kind.name
  | .stop kind _ => kind.name
  | .emptyRecord _ => "ValueError"
  | .notAMember .. => "ValueError"
  | .unhashable _ => "TypeError"
  | .notIterable _ => "TypeError"
  | .lacks .. => "AttributeError"
  | .notHexadecimal _ => "ValueError"
  | .noJsonForm _ => "TypeError"
  | .noJsonName _ => "TypeError"
  | .notANumber .. => "ValueError"
  | .notFinite isNaN => if isNaN then "ValueError" else "OverflowError"
  | .zeroStep => "ValueError"
  | .notAMoment _ => "ValueError"
  | .intTooLarge => "OverflowError"
  | .malformedJson => "JSONDecodeError"
  | .tooManyDigits _ => "ValueError"
  | .tooLongToWrite => "ValueError"
  | .tooDeep _ => "RecursionError"
  | .unpairedHalf _ => "UnicodeEncodeError"
  | .linkLoop _ => "RuntimeError"
  | .nullInPath => "ValueError"
  | .other name _ => name

/-- The text of details: nothing, the one detail, or all of them in parentheses. -/
def detailsText : List Detail → String
  | [] => ""
  | [d] => d.shown
  | details => Detail.tuple details

/-- Whether the third detail of an error of the operating system is a path. Where an operation would
have to wait it may be the number of characters that were written. -/
def namesPath (kind : SystemKind) : List Detail → Bool
  | [_, _, path] | [_, _, path, _] | [_, _, path, _, _] =>
    match kind, path with
    | .blocking, .number _ => false
    | _, _ => true
  | _ => false

/-- The text of an error of the operating system: its number and wording, and the paths where they
are given. -/
def systemText (kind : SystemKind) (details : List Detail) : String :=
  let heading (number wording : Detail) := "[Errno " ++ number.shown ++ "] " ++ wording.shown
  let more (path : Detail) (rest : String) :=
    if namesPath kind details then ": " ++ path.quoted ++ rest else ""
  match details with
  | [number, wording] => heading number wording
  | [number, wording, path] => heading number wording ++ more path ""
  | [number, wording, path, _] => heading number wording ++ more path ""
  | [number, wording, path, _, path'] => heading number wording ++ more path (" -> " ++ path'.quoted)
  | details => detailsText details

/-- Whether faults of a name are about a text that is no program. -/
def isSyntaxName (name : String) : Bool :=
  ["SyntaxError", "IndentationError", "TabError"].contains name

/-- The text of a fault about a text that is no program: its message, which is the first detail, and
the file, which is the first part of the second of two. -/
def syntaxText : List Detail → String
  | [] => "None"
  | [d, .text place] =>
    d.shown ++ " (" ++ String.ofList ((place.toList.take 1).filter (· ≠ '/')) ++ ")"
  | d :: _ => d.shown

/-- The text of a range of something that cannot be converted. A single character is shown by its
number. -/
def rangeText (before : String) (chars : List Char) (start finish : Int) (reason : String) : String :=
  let single := if start < 0 ∨ finish ≠ start + 1 then none else chars[start.toNat]?
  match single with
  | some c =>
    before ++ " character '" ++ String.ofList (Text.escapeByNumber c) ++ "' in position "
      ++ toString start ++ ": " ++ reason
  | none =>
    before ++ " characters in position " ++ toString start ++ "-" ++ toString (finish - 1) ++ ": "
      ++ reason

/-- The text of a fault that is known by its name alone. -/
def otherText (name : String) (details : List Detail) : String :=
  match name, details with
  | "UnicodeEncodeError", [.text codec, .text s, .number start, .number finish, .text reason] =>
    rangeText ("'" ++ codec ++ "' codec can't encode") s.toList start finish reason
  | "UnicodeTranslateError", [.text s, .number start, .number finish, .text reason] =>
    rangeText "can't translate" s.toList start finish reason
  | _, _ => if isSyntaxName name then syntaxText details else detailsText details

/-- The text of a range of bytes that are no text. A single byte is shown itself; the places right
before the bytes count as bytes of ones. -/
def undecodableText (bytes : List UInt8) (start finish : Int) (reason : String) : String :=
  let codec := "'utf-8' codec can't decode "
  let single :=
    if finish ≠ start + 1 then none
    else if start < 0 then (if -8 ≤ start then some 0xff else none)
    else bytes[start.toNat]?
  match single with
  | some b =>
    codec ++ "byte 0x" ++ String.ofList (Text.Hex.digits 2 b.toNat) ++ " in position "
      ++ toString start ++ ": " ++ reason
  | none =>
    codec ++ "bytes in position " ++ toString start ++ "-" ++ toString (finish - 1) ++ ": " ++ reason

/-- The text of halves of surrogate pairs that cannot be written: the first ones that stand together. -/
def unpairedText (codes : List Nat) : String :=
  let start := (codes.takeWhile fun n => !WideText.isHalf n).length
  let halves := (codes.drop start).takeWhile WideText.isHalf
  let place :=
    match halves with
    | [n] => " character '\\u" ++ String.ofList (Text.Hex.digits 4 n) ++ "' in position " ++ toString start
    | _ => " characters in position " ++ toString start ++ "-" ++ toString (start + halves.length - 1)
  "'utf-8' codec can't encode" ++ place ++ ": surrogates not allowed"

/-- The most characters that are shown of a text that is no whole number. -/
def mostShown : Nat := 200

/-- The text of a fault. -/
def text : Fault → String
  | .system kind details => systemText kind details
  | .undecodable bytes start finish reason => undecodableText bytes start finish reason
  | .outOfMemory details => detailsText details
  | .missingKey [d] => d.quoted
  | .missingKey details => detailsText details
  | .report r _ => r.message
  | .stop _ details => detailsText details
  | .emptyRecord path => "FileRecord for " ++ path ++ " has no entries"
  | .notAMember value enumeration => value ++ " is not a valid " ++ enumeration
  | .unhashable type => "unhashable type: '" ++ type ++ "'"
  | .notIterable type => "'" ++ type ++ "' object is not iterable"
  | .lacks type part => "'" ++ type ++ "' object has no attribute '" ++ part ++ "'"
  | .notHexadecimal place =>
    "non-hexadecimal number found in fromhex() arg at position " ++ toString place
  | .noJsonForm type => "Object of type " ++ type ++ " is not JSON serializable"
  | .noJsonName type => "keys must be str, int, float, bool or None, not " ++ type
  | .notANumber s true => "could not convert string to float: " ++ Text.quoted s
  | .notANumber s false =>
    "invalid literal for int() with base 10: "
      ++ String.ofList ((Text.quoted s).toList.take mostShown)
  | .notFinite isNaN =>
    "cannot convert float " ++ (if isNaN then "NaN" else "infinity") ++ " to integer"
  | .zeroStep => "range() arg 3 must not be zero"
  | .notAMoment why => why.text
  | .intTooLarge => "int too large to convert to float"
  | .malformedJson => "not a JSON value"
  | .tooManyDigits n =>
    "Exceeds the limit (" ++ toString Json.mostDigits ++
      " digits) for integer string conversion: value has " ++ toString n ++
      " digits; use sys.set_int_max_str_digits() to increase the limit"
  | .tooLongToWrite =>
    "Exceeds the limit (" ++ toString Json.mostDigits ++
      " digits) for integer string conversion; use sys.set_int_max_str_digits() to increase the limit"
  | .tooDeep b =>
    "maximum recursion depth exceeded while decoding a JSON " ++
      (match b with | .list => "array" | .object => "object") ++ " from a unicode string"
  | .unpairedHalf codes => unpairedText codes
  | .linkLoop path => "Symlink loop from " ++ Text.quoted path
  | .nullInPath => "embedded null byte"
  | .other name details => otherText name details

/-- The name and the text of a fault. -/
def titled (f : Fault) : String := f.name ++ ": " ++ f.text

end Fault

/-! ## Steps that may fail -/

theorem bind_eq_ok_iff {ε α β : Type} {x : Except ε α} {f : α → Except ε β} {b : β} :
    (x >>= f) = .ok b ↔ ∃ a, x = .ok a ∧ f a = .ok b := by
  cases x with
  | error e => exact iff_of_false (by simp [bind, Except.bind]) (by simp)
  | ok a => simp [bind, Except.bind]

theorem bind_eq_error_iff {ε α β : Type} {x : Except ε α} {f : α → Except ε β} {e : ε} :
    (x >>= f) = .error e ↔ x = .error e ∨ ∃ a, x = .ok a ∧ f a = .error e := by
  cases x with
  | error e' => simp [bind, Except.bind]
  | ok a => simp [bind, Except.bind]

end RouteAtlas
