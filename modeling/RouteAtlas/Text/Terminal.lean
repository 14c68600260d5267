/-!
# Terminal control sequences

Output that goes to no terminal is written without control sequences. A sequence is an escape
character and an opening bracket, then parameters, then intermediate characters, and a final
character; each of the three kinds is a range of ASCII, and the ranges do not meet.
-/

namespace RouteAtlas.Text

/-- The character that starts a control sequence. -/
def escapeCharacter : Char := '\x1b'

/-- Whether a character may stand among the parameters of a control sequence. -/
def isParameter (c : Char) : Bool := '0' ≤ c && c ≤ '?'

/-- Whether a character may stand between the parameters and the end of a control sequence. -/
def isIntermediate (c : Char) : Bool := ' ' ≤ c && c ≤ '/'

/-- Whether a character ends a control sequence. -/
def isFinal (c : Char) : Bool := '@' ≤ c && c ≤ '~'

/-- How far a control sequence has come. -/
inductive ControlStage where
  | outside
  /-- After the escape character. -/
  | escaped
  | parameters
  | intermediates
deriving DecidableEq, Repr

/-- The stage after one more character of a sequence, if it may follow. After the last character of
a sequence we are outside again. -/
def ControlStage.next? : ControlStage → Char → Option ControlStage
  | outside, c => if c = escapeCharacter then some escaped else none
  | escaped, c => if c = '[' then some parameters else none
  | parameters, c =>
    if isParameter c then some parameters
    else if isIntermediate c then some intermediates
    else if isFinal c then some outside
    else none
  | intermediates, c =>
    if isIntermediate c then some intermediates
    else if isFinal c then some outside
    else none

/-- Adds a text without its control sequences to what is done. What is done and what is held back,
because it may turn out to be a sequence, have their last character first. -/
def dropControlsOnto (done : List Char) (stage : ControlStage) (held : List Char) :
    List Char → List Char
  | [] => (held ++ done).reverse
  | c :: rest =>
    match stage.next? c with
    | some .outside => dropControlsOnto done .outside [] rest
    | some stage => dropControlsOnto done stage (c :: held) rest
    | none =>
      if c = escapeCharacter then dropControlsOnto (held ++ done) .escaped [c] rest
      else dropControlsOnto (c :: (held ++ done)) .outside [] rest

/-- The text without control sequences. -/
def withoutControls (s : String) : String :=
  String.ofList (dropControlsOnto [] .outside [] s.toList)

end RouteAtlas.Text
