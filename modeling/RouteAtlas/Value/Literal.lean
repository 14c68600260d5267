import RouteAtlas.Fault.Named
import RouteAtlas.Numeral.Literal
import RouteAtlas.Numeral.Truncate
import RouteAtlas.Path
import RouteAtlas.Value.Items

/-!
# Values from their parts

Numbers, bytes, ranges and moments from the parts that write them, each with the fault of parts that
make no value.
-/

namespace RouteAtlas.Value

open Fault (wrongType)

/-! ## Numbers -/

/-- The whole number that a text writes. Of a text with something wrong after its digits, too many
digits are noticed first. -/
def wholeOfText (s : String) : Except Fault Int :=
  match Numeral.wholeStart? s with
  | Option.none => .error (.notANumber s false)
  | some (negative, digits, rest) =>
    if Json.mostDigits < digits.length then .error (.tooManyDigits digits.length)
    else if !rest.all Text.isGap then .error (.notANumber s false)
    else .ok (Numeral.signed negative (Numeral.digitsValue digits))

/-- The whole number that a value gives: that of a text, or a number without its fraction. -/
def wholeOf : Value → Except Fault Int
  | .text s => wholeOfText s.rendition
  | .float x =>
    if x.isNaN || x.isInf then .error (.notFinite x.isNaN) else .ok (Numeral.truncate x)
  | v =>
    match v.whole? with
    | some n => .ok n
    | Option.none =>
      .error (wrongType ("int() argument must be a string, a bytes-like object or a real number, not '"
        ++ v.typeName ++ "'"))

/-- The floating-point number that a value gives: that of a text, or the nearest to a number. -/
def floatOf : Value → Except Fault Float
  | .text s =>
    match Numeral.floatLiteral? s.rendition with
    | some x => .ok x
    | Option.none => .error (.notANumber s.rendition true)
  | .float x => .ok x
  | v =>
    match v.whole? with
    | some n => match Numeral.floatOfInt? n with | some x => .ok x | Option.none => .error .intTooLarge
    | Option.none =>
      .error (wrongType ("float() argument must be a string or a real number, not '"
        ++ v.typeName ++ "'"))

/-- The whole number that a value is. -/
def index (v : Value) : Except Fault Int :=
  match v.whole? with
  | some n => .ok n
  | Option.none =>
    .error (wrongType ("'" ++ v.typeName ++ "' object cannot be interpreted as an integer"))

/-! ## Bytes, paths and ranges -/

/-- The bytes that a text of hexadecimal digits writes. -/
def bytesOf : Value → Except Fault (List UInt8)
  | .text s => (Text.Hex.bytes s.rendition).mapError .notHexadecimal
  | v =>
    let type := if v.isNone then "None" else v.typeName
    .error (wrongType ("fromhex() argument must be str, not " ++ type))

/-- The path that a text writes. -/
def pathOf : Value → Except Fault Value
  | .text s => .ok (.path (toString (Path.ofString s.rendition)))
  | v => .error (wrongType ("expected str, bytes or os.PathLike object, not " ++ v.typeName))

/-- The range that one to three numbers make: the end, or the start, the end and the step. -/
def rangeOf (parts : List Value) : Except Fault Value :=
  let make (start stop step : Int) : Except Fault Value :=
    if step = 0 then .error .zeroStep else .ok (.range start stop step)
  match parts with
  | [] => .error (wrongType "range expected at least 1 argument, got 0")
  | [stop] => do make 0 (← stop.index) 1
  | [start, stop] => do make (← start.index) (← stop.index) 1
  | [start, stop, step] => do make (← start.index) (← stop.index) (← step.index)
  | parts => .error (wrongType ("range expected at most 3 arguments, got " ++ toString parts.length))

/-! ## Moments -/

/-- The fault of a number beyond what is stored. -/
def overflow (message : String) : Fault := .other "OverflowError" [.text message]

/-- Whether a number fits into half a machine word. -/
def fitsHalf (n : Int) : Bool := -2147483648 ≤ n && n ≤ 2147483647

/-- A number of a date or a time of day. -/
def clockNumber (v : Value) : Except Fault Int := do
  let n ← v.index
  if !Fault.fitsWord n then .error (overflow "Python int too large to convert to C long")
  else if 2147483647 < n then .error (overflow "signed integer is greater than maximum")
  else if n < -2147483648 then .error (overflow "signed integer is less than minimum")
  else return n

/-- The microseconds of some minutes. A fraction of a minute is rounded, halves to the even number. -/
def minutesToMicroseconds (x : Float) : Int :=
  let whole := Numeral.truncate x
  let scaled := 60000000 * (x - Float.ofInt whole)
  let below := Numeral.truncate scaled
  let rest := scaled - Float.ofInt below
  let sum := whole * 60000000 + below
  let up := rest > 0.5 || (rest == 0.5 && sum % 2 == 1)
  let down := rest < -0.5 || (rest == -0.5 && sum % 2 == 1)
  if up then sum + 1 else if down then sum - 1 else sum

/-- The distance from universal time that a number of minutes gives, in microseconds; none where
there is no value. A distance of a day or more is refused. -/
def distanceOf (v : Value) : Except Fault (Option Int) := do
  let distance ← match v with
    | .none => return Option.none
    | .float x =>
      if x.isNaN || x.isInf then .error (.notFinite x.isNaN) else pure (minutesToMicroseconds x)
    | v =>
      match v.whole? with
      | some n => pure (n * 60000000)
      | Option.none =>
        .error (wrongType ("unsupported type for timedelta minutes component: " ++ v.typeName))
  let days := Moment.wholeDays distance
  if !fitsHalf days then .error (overflow "Python int too large to convert to C int")
  else if 999999999 < days.natAbs then
    .error (overflow ("days=" ++ toString days ++ "; must have magnitude <= 999999999"))
  else ((Moment.zone distance).map some).mapError .notAMoment

/-- The moment of a date and a time of day: a year, a month, a day, an hour, a minute, a second and a
microsecond, and the minutes east of universal time. -/
def momentOf (parts : List Value) (minutes : Value) : Except Fault Value := do
  let distance ← distanceOf minutes
  match ← parts.mapM clockNumber with
  | [year, month, day, hour, minute, second, microsecond] =>
    match Moment.make year month day hour minute second microsecond distance with
    | .ok m => return .moment m
    | .error why => .error (.notAMoment why)
  | _ => return .none

end RouteAtlas.Value
