import ScopeCheck.Json.Basic
import ScopeCheck.Text.Bytes

/-!
# JSON numbers

A number is read digit by digit into a significand below `2 ^ 64` and an exponent of ten.  A whole
number in the range of 64 bits stays an integer.  Any other number becomes a double: the
significand, scaled by powers of ten, each scaling rounded.

* `Malformed`: what can be wrong with the form of a JSON text.
* `Stop`: where reading a text stopped.
* `Literal`: what a number literal denotes.
* `readNumber`: the literal at the start of a text.
-/

namespace ScopeCheck.Json

open ScopeCheck.Decimal (Binary64)
open ScopeCheck.Text (byteLength)

/-- What can be wrong with the form of a JSON text. -/
inductive Malformed where
  | endInValue
  | endInString
  | endInList
  | endInObject
  | expectedValue
  | expectedWord
  | expectedColon
  | expectedListEnd
  | expectedObjectEnd
  | keyNotString
  | trailingComma
  | trailingCharacters
  | invalidNumber
  | numberOutOfRange
  | invalidEscape
  | unpairedSurrogate
  | unfinishedSurrogate
  | controlCharacter
  | tooDeep
  deriving DecidableEq, Repr

/-- The message for a malformed text. -/
def Malformed.message : Malformed → String
  | endInValue => "EOF while parsing a value"
  | endInString => "EOF while parsing a string"
  | endInList => "EOF while parsing a list"
  | endInObject => "EOF while parsing an object"
  | expectedValue => "expected value"
  | expectedWord => "expected ident"
  | expectedColon => "expected `:`"
  | expectedListEnd => "expected `,` or `]`"
  | expectedObjectEnd => "expected `,` or `\x7d`"
  | keyNotString => "key must be a string"
  | trailingComma => "trailing comma"
  | trailingCharacters => "trailing characters"
  | invalidNumber => "invalid number"
  | numberOutOfRange => "number out of range"
  | invalidEscape => "invalid escape"
  | unpairedSurrogate => "lone leading surrogate in hex escape"
  | unfinishedSurrogate => "unexpected end of hex escape"
  | controlCharacter => "control character (\\u0000-\\u001F) found while parsing a string"
  | tooDeep => "recursion limit exceeded"

/-- Reading stopped at a malformed place.  The place is given by the number of bytes after it. -/
structure Stop where
  reason : Malformed
  unread : Nat
  deriving DecidableEq, Repr

/-- Stops in front of a text. -/
def stopBefore (reason : Malformed) (rest : List Char) : Stop :=
  ⟨reason, byteLength rest⟩

/-- Stops after the first byte of a text; the end of the text counts as such. -/
def stopAt (reason : Malformed) (rest : List Char) : Stop :=
  ⟨reason, byteLength rest - 1⟩

/-- What a number literal denotes. -/
inductive Literal where
  | integer (value : Int)
  | float (value : Binary64)
  deriving DecidableEq, Repr

def Literal.toJson : Literal → Json
  | integer n => .integer n
  | float x => .float x

/-! ## Digits -/

/-- The value of a decimal digit. -/
def digit? (c : Char) : Option Nat :=
  if '0' ≤ c ∧ c ≤ '9' then some (c.toNat - 48) else none

/-- Whether a text starts with a decimal digit. -/
def startsDigit : List Char → Bool
  | c :: _ => (digit? c).isSome
  | [] => false

/-- The text after the decimal digits at its start. -/
def dropDigits (cs : List Char) : List Char :=
  cs.dropWhile fun c => (digit? c).isSome

/-- Appends the digits at the start of a text to a significand as long as it stays below
`2 ^ 64`; also counts them. -/
def takeDigits (significand count : Nat) : List Char → Nat × Nat × List Char
  | [] => (significand, count, [])
  | c :: cs =>
    match digit? c with
    | some d =>
      if significand * 10 + d < Nat.pow 2 64 then takeDigits (significand * 10 + d) (count + 1) cs
      else (significand, count, c :: cs)
    | none => (significand, count, c :: cs)

/-! ## Doubles -/

/-- Divides by `10 ^ 308` until the exponent is in reach of one division; a size that has become
zero stays zero. -/
def shrink : Nat → Binary64 → Nat → Binary64
  | 0, _, _ => Binary64.zero
  | fuel + 1, x, down =>
    if down ≤ 308 then x.dividedBy (Binary64.powerOfTen down)
    else if x.isZero then x
    else shrink fuel (x.dividedBy (Binary64.powerOfTen 308)) (down - 308)

/-- The size of `significand · 10 ^ exponent`; nothing when it is too large. -/
def scaled? (significand : Nat) (exponent : Int) : Option Binary64 :=
  let x := Binary64.nearest ⟨significand, 1⟩
  if exponent < 0 then some (shrink 4 x exponent.natAbs)
  else if exponent ≤ 308 then
    let y := x.times (Binary64.powerOfTen exponent.toNat)
    if y.isInfinite then none else some y
  else if x.isZero then some x
  else none

/-- The double of a literal whose text ends in front of `rest`. -/
def double (negative : Bool) (significand : Nat) (exponent : Int) (rest : List Char) :
    Except Stop (Literal × List Char) :=
  match scaled? significand exponent with
  | some x => .ok (.float (if negative then x.negate else x), rest)
  | none => .error (stopBefore .numberOutOfRange rest)

/-! ## The parts of a literal -/

/-- Appends digits to an exponent while it fits in 31 bits.  The second part is the text after
the digits, or `none` with the text after the digit that did not fit. -/
def exponentDigits (value : Nat) : List Char → Nat × Bool × List Char
  | [] => (value, true, [])
  | c :: cs =>
    match digit? c with
    | some d =>
      if value * 10 + d < Nat.pow 2 31 then exponentDigits (value * 10 + d) cs
      else (value, false, cs)
    | none => (value, true, c :: cs)

/-- The exponent part after its `e`. -/
def readExponent (negative : Bool) (significand : Nat) (exponent : Int) (cs : List Char) :
    Except Stop (Literal × List Char) :=
  let (down, cs) := match cs with
    | '+' :: cs => (false, cs)
    | '-' :: cs => (true, cs)
    | cs => (false, cs)
  match cs with
  | [] => .error (stopBefore .endInValue [])
  | c :: rest =>
    match digit? c with
    | none => .error (stopAt .invalidNumber (c :: rest))
    | some d =>
      match exponentDigits d rest with
      | (value, true, rest) =>
        double negative significand (if down then exponent - value else exponent + value) rest
      | (_, false, rest) =>
        if significand ≠ 0 && !down then .error (stopBefore .numberOutOfRange rest)
        else .ok (.float (if negative then Binary64.zero.negate else Binary64.zero),
          dropDigits rest)

/-- What follows the digits of a literal that is not an integer. -/
def readTail (negative : Bool) (significand : Nat) (exponent : Int) (cs : List Char) :
    Except Stop (Literal × List Char) :=
  match cs with
  | 'e' :: cs => readExponent negative significand exponent cs
  | 'E' :: cs => readExponent negative significand exponent cs
  | cs => double negative significand exponent cs

/-- The fraction after its point.  Digits that the significand has no room for are dropped. -/
def readFraction (negative : Bool) (significand : Nat) (exponent : Int) (cs : List Char) :
    Except Stop (Literal × List Char) :=
  match takeDigits significand 0 cs with
  | (value, count, rest) =>
    if startsDigit rest then readTail negative value (exponent - count) (dropDigits rest)
    else if count = 0 then
      .error (stopAt (if rest.isEmpty then .endInValue else .invalidNumber) rest)
    else readTail negative value (exponent - count) rest

/-- An integer; the negative zero and what 64 bits cannot hold are doubles. -/
def wholeNumber (negative : Bool) (significand : Nat) : Literal :=
  if negative then
    if significand = 0 ∨ Nat.pow 2 63 < significand then
      .float (Binary64.nearest ⟨significand, 1⟩).negate
    else .integer (-significand)
  else .integer significand

/-- What follows the whole part of a literal. -/
def readAfterWhole (negative : Bool) (significand : Nat) (cs : List Char) :
    Except Stop (Literal × List Char) :=
  match cs with
  | '.' :: cs => readFraction negative significand 0 cs
  | 'e' :: cs => readExponent negative significand 0 cs
  | 'E' :: cs => readExponent negative significand 0 cs
  | cs => .ok (wholeNumber negative significand, cs)

/-- A literal whose whole part has more digits than the significand has room for. -/
def readLong (negative : Bool) (significand : Nat) (cs : List Char) :
    Except Stop (Literal × List Char) :=
  let rest := dropDigits cs
  let exponent : Int := cs.length - rest.length
  match rest with
  | '.' :: rest => readFraction negative significand exponent rest
  | rest => readTail negative significand exponent rest

/-- The literal at the start of a text, after its minus sign. -/
def readUnsigned (negative : Bool) (cs : List Char) : Except Stop (Literal × List Char) :=
  match cs with
  | [] => .error (stopBefore .endInValue [])
  | c :: rest =>
    match digit? c with
    | none => .error (stopAt .invalidNumber (c :: rest))
    | some 0 =>
      if startsDigit rest then .error (stopAt .invalidNumber rest)
      else readAfterWhole negative 0 rest
    | some (d + 1) =>
      match takeDigits (d + 1) 1 rest with
      | (value, _, rest) =>
        if startsDigit rest then readLong negative value rest
        else readAfterWhole negative value rest

/-- The number literal at the start of a text. -/
def readNumber : List Char → Except Stop (Literal × List Char)
  | '-' :: cs => readUnsigned true cs
  | cs => readUnsigned false cs

end ScopeCheck.Json
