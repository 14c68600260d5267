/-!
# Strict UTF-8

`decode` reads a byte string as UTF-8 and accepts exactly the encodings of character sequences: no
overlong form, no surrogate, nothing above U+10FFFF. A refusal names the bytes at fault: a byte that
cannot start a character, a started character whose next byte does not continue it (with the bytes
read so far), or a started character cut off by the end.
-/

namespace RouteAtlas.Text.Utf8

/-- Why a byte string is no UTF-8 text. -/
inductive Reason where
  /-- The byte starts no character. -/
  | invalidStart
  /-- The byte after the started character does not continue it. -/
  | invalidContinuation
  /-- The input ends inside a character. -/
  | unexpectedEnd
deriving DecidableEq, Repr

/-- The wording of a reason. -/
def Reason.text : Reason → String
  | .invalidStart => "invalid start byte"
  | .invalidContinuation => "invalid continuation byte"
  | .unexpectedEnd => "unexpected end of data"

/-- The bytes at fault, as a range of positions, and what is wrong with them. -/
structure Refusal where
  /-- The position of the first byte at fault, which is the length of the good part before it. -/
  start : Nat
  /-- The number of bytes at fault. -/
  width : Nat
  /-- What is wrong with them. -/
  reason : Reason
deriving DecidableEq, Repr

/-- What may follow a lead byte: the number of continuation bytes, the range of the first of them,
and the bits that the lead byte contributes. -/
structure Lead where
  /-- The number of continuation bytes. -/
  more : Nat
  /-- The least first continuation byte. -/
  low : UInt8
  /-- The greatest first continuation byte. -/
  high : UInt8
  /-- The value bits of the lead byte. -/
  bits : Nat
deriving DecidableEq, Repr

/-- The lead of a character of several bytes. The range of the first continuation byte excludes the
overlong forms (after E0 and F0), the surrogates (after ED) and the values above U+10FFFF (after
F4). -/
def lead? (b : UInt8) : Option Lead :=
  if b < 0xC2 then none
  else if b < 0xE0 then some ⟨1, 0x80, 0xBF, b.toNat - 0xC0⟩
  else if b = 0xE0 then some ⟨2, 0xA0, 0xBF, 0⟩
  else if b = 0xED then some ⟨2, 0x80, 0x9F, 0xD⟩
  else if b < 0xF0 then some ⟨2, 0x80, 0xBF, b.toNat - 0xE0⟩
  else if b = 0xF0 then some ⟨3, 0x90, 0xBF, 0⟩
  else if b < 0xF4 then some ⟨3, 0x80, 0xBF, b.toNat - 0xF0⟩
  else if b = 0xF4 then some ⟨3, 0x80, 0x8F, 4⟩
  else none

/-- A character that has been started and not yet ended. -/
structure Started where
  /-- The position of its lead byte. -/
  start : Nat
  /-- The number of its bytes read so far. -/
  width : Nat
  /-- The number of its bytes still to come. -/
  more : Nat
  /-- The least next byte. -/
  low : UInt8
  /-- The greatest next byte. -/
  high : UInt8
  /-- The value of the bits read so far. -/
  bits : Nat
deriving DecidableEq, Repr

/-- Reads on at position `pos`: `open?` is the character begun, if any, and `done` the characters
ended so far, last one first. -/
def decodeFrom (pos : Nat) (open? : Option Started) (done : List Char) :
    List UInt8 → Except Refusal (List Char)
  | [] =>
    match open? with
    | none => .ok done.reverse
    | some c => .error ⟨c.start, c.width, .unexpectedEnd⟩
  | b :: rest =>
    match open? with
    | none =>
      if b < 0x80 then decodeFrom (pos + 1) none (Char.ofNat b.toNat :: done) rest
      else
        match lead? b with
        | none => .error ⟨pos, 1, .invalidStart⟩
        | some l => decodeFrom (pos + 1) (some ⟨pos, 1, l.more, l.low, l.high, l.bits⟩) done rest
    | some c =>
      if b < c.low || c.high < b then .error ⟨c.start, c.width, .invalidContinuation⟩
      else
        let bits := c.bits * 64 + (b.toNat - 0x80)
        if c.more ≤ 1 then decodeFrom (pos + 1) none (Char.ofNat bits :: done) rest
        else
          decodeFrom (pos + 1) (some ⟨c.start, c.width + 1, c.more - 1, 0x80, 0xBF, bits⟩) done rest

/-- The characters that the bytes encode, or the bytes at fault. -/
def decode (bytes : List UInt8) : Except Refusal (List Char) := decodeFrom 0 none [] bytes

end RouteAtlas.Text.Utf8
