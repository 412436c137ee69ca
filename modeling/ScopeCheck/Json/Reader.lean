import ScopeCheck.Json.Number

/-!
# Reading JSON

A reader takes the text in front of it and gives back what it read together with the text that is
left.  Where it stops is told by the number of bytes that were left there.

* `readString`: the rest of a string after its opening quote.
* `readScalar`: a value that is neither a list nor an object.
* `readValue`: any value, to a limit of nesting.
* `parse`: a whole text.

Every reader that recurses takes a fuel that exceeds the length of the text: each step consumes
at least one character, so the fuel never runs out.
-/

namespace ScopeCheck.Json

open ScopeCheck.Text (byteLength)

/-- The white space of JSON. -/
def isBlank (c : Char) : Bool :=
  c = ' ' || c = '\n' || c = '\t' || c = '\r'

/-- The text after the white space at its start. -/
def skipBlank (cs : List Char) : List Char :=
  cs.dropWhile isBlank

/-- The text after the rest of a word, one character at a time. -/
def readWord : List Char → List Char → Except Stop (List Char)
  | [], cs => .ok cs
  | _ :: _, [] => .error (stopBefore .endInValue [])
  | w :: word, c :: cs =>
    if c = w then readWord word cs else .error (stopAt .expectedWord (c :: cs))

/-! ## Strings -/

/-- The value of a hexadecimal digit in either case. -/
def hexDigit? (c : Char) : Option Nat :=
  if '0' ≤ c ∧ c ≤ '9' then some (c.toNat - 48)
  else if 'a' ≤ c ∧ c ≤ 'f' then some (c.toNat - 87)
  else if 'A' ≤ c ∧ c ≤ 'F' then some (c.toNat - 55)
  else none

/-- The four hexadecimal digits at the start of a text. -/
def hexFour? : List Char → Option (Nat × List Char)
  | a :: b :: c :: d :: rest => do
    let a ← hexDigit? a
    let b ← hexDigit? b
    let c ← hexDigit? c
    let d ← hexDigit? d
    return (((a * 16 + b) * 16 + c) * 16 + d, rest)
  | _ => none

/-- The four digits of an escape.  Fewer than four bytes are the end of the text. -/
def readHex (cs : List Char) : Except Stop (Nat × List Char) :=
  if byteLength (cs.take 4) < 4 then .error ⟨.endInString, 0⟩
  else
    match hexFour? cs with
    | some found => .ok found
    | none => .error ⟨.invalidEscape, byteLength cs - 4⟩

/-- The second half of a surrogate pair. -/
def readLowSurrogate (high : Nat) (cs : List Char) : Except Stop (Char × List Char) :=
  match cs with
  | [] => .error ⟨.endInString, 0⟩
  | '\\' :: [] => .error ⟨.endInString, 0⟩
  | '\\' :: 'u' :: rest =>
    match readHex rest with
    | .error stop => .error stop
    | .ok (low, rest) =>
      if 0xDC00 ≤ low ∧ low ≤ 0xDFFF then
        .ok (Char.ofNat ((high - 0xD800) * 0x400 + (low - 0xDC00) + 0x10000), rest)
      else .error (stopBefore .unpairedSurrogate rest)
  | '\\' :: rest => .error (stopAt .unfinishedSurrogate rest)
  | rest => .error (stopAt .unfinishedSurrogate rest)

/-- An escape by number, after its `u`. -/
def readUnicode (cs : List Char) : Except Stop (Char × List Char) :=
  match readHex cs with
  | .error stop => .error stop
  | .ok (n, rest) =>
    if 0xDC00 ≤ n ∧ n ≤ 0xDFFF then .error (stopBefore .unpairedSurrogate rest)
    else if 0xD800 ≤ n ∧ n ≤ 0xDBFF then readLowSurrogate n rest
    else .ok (Char.ofNat n, rest)

/-- The character that a one-letter escape stands for. -/
def escaped? (c : Char) : Option Char :=
  if c = '\"' then some '\"'
  else if c = '\\' then some '\\'
  else if c = '/' then some '/'
  else if c = 'b' then some '\x08'
  else if c = 'f' then some '\x0C'
  else if c = 'n' then some '\n'
  else if c = 'r' then some '\r'
  else if c = 't' then some '\t'
  else none

/-- An escape after its backslash. -/
def readEscape : List Char → Except Stop (Char × List Char)
  | [] => .error ⟨.endInString, 0⟩
  | c :: rest =>
    match escaped? c with
    | some found => .ok (found, rest)
    | none => if c = 'u' then readUnicode rest else .error (stopAt .invalidEscape (c :: rest))

/-- The characters of a string up to its closing quote. -/
def readChars : Nat → List Char → Except Stop (List Char × List Char)
  | 0, _ => .error ⟨.endInString, 0⟩
  | _ + 1, [] => .error ⟨.endInString, 0⟩
  | fuel + 1, c :: cs =>
    if c = '\"' then .ok ([], cs)
    else if c = '\\' then do
      let (d, cs) ← readEscape cs
      let (ds, rest) ← readChars fuel cs
      return (d :: ds, rest)
    else if c.toNat < 32 then .error (stopAt .controlCharacter (c :: cs))
    else do
      let (ds, rest) ← readChars fuel cs
      return (c :: ds, rest)

/-- A string after its opening quote. -/
def readString (fuel : Nat) (cs : List Char) : Except Stop (String × List Char) := do
  let (ds, rest) ← readChars fuel cs
  return (String.ofList ds, rest)

/-! ## Values -/

/-- A value that is neither a list nor an object. -/
def readScalar (fuel : Nat) (cs : List Char) : Except Stop (Json × List Char) :=
  match cs with
  | [] => .error (stopBefore .endInValue [])
  | c :: rest =>
    if c = '\"' then do
      let (s, rest) ← readString fuel rest
      return (.str s, rest)
    else if c = 'n' then do
      let rest ← readWord ['u', 'l', 'l'] rest
      return (.null, rest)
    else if c = 't' then do
      let rest ← readWord ['r', 'u', 'e'] rest
      return (.bool true, rest)
    else if c = 'f' then do
      let rest ← readWord ['a', 'l', 's', 'e'] rest
      return (.bool false, rest)
    else if c = '-' ∨ (digit? c).isSome then do
      let (literal, rest) ← readNumber (c :: rest)
      return (literal.toJson, rest)
    else .error (stopAt .expectedValue (c :: rest))

/-- Whether a list goes on in front of a text, which has no blank at its start: the text at the
next item, or nothing when the closing bracket is next. -/
def nextItem (first : Bool) (cs : List Char) : Except Stop (Option (List Char)) :=
  match cs with
  | [] => .error (stopBefore .endInList [])
  | c :: rest =>
    if c = ']' then .ok none
    else if first then .ok (some (c :: rest))
    else if c = ',' then
      match skipBlank rest with
      | [] => .error (stopBefore .endInValue [])
      | d :: rest =>
        if d = ']' then .error (stopAt .trailingComma (d :: rest)) else .ok (some (d :: rest))
    else .error (stopAt .expectedListEnd (c :: rest))

/-- Whether an object goes on in front of a text, which has no blank at its start: the text after
the opening quote of the next name, or nothing when the closing brace is next. -/
def nextMember (first : Bool) (cs : List Char) : Except Stop (Option (List Char)) :=
  match cs with
  | [] => .error (stopBefore .endInObject [])
  | c :: rest =>
    if c = '}' then .ok none
    else if first then
      if c = '\"' then .ok (some rest) else .error (stopAt .keyNotString (c :: rest))
    else if c = ',' then
      match skipBlank rest with
      | [] => .error (stopBefore .endInValue [])
      | d :: rest =>
        if d = '\"' then .ok (some rest)
        else if d = '}' then .error (stopAt .trailingComma (d :: rest))
        else .error (stopAt .keyNotString (d :: rest))
    else .error (stopAt .expectedObjectEnd (c :: rest))

/-- The text after the colon behind a name. -/
def readColon (cs : List Char) : Except Stop (List Char) :=
  match skipBlank cs with
  | [] => .error (stopBefore .endInObject [])
  | c :: rest => if c = ':' then .ok rest else .error (stopAt .expectedColon (c :: rest))

mutual

/-- A value, in which `depth` lists and objects may still be opened. -/
def readValue : Nat → Nat → List Char → Except Stop (Json × List Char)
  | 0, _, _ => .error ⟨.endInValue, 0⟩
  | fuel + 1, depth, cs =>
    match skipBlank cs with
    | '[' :: rest =>
      match depth with
      | 0 => .error (stopAt .tooDeep ('[' :: rest))
      | depth + 1 => do
        let (items, rest) ← readItems fuel depth true (skipBlank rest)
        return (.arr items, rest)
    | '{' :: rest =>
      match depth with
      | 0 => .error (stopAt .tooDeep ('{' :: rest))
      | depth + 1 => do
        let (members, rest) ← readMembers fuel depth true (skipBlank rest)
        return (.ofMembers members, rest)
    | cs => readScalar fuel cs

/-- The items of a list up to its closing bracket. -/
def readItems : Nat → Nat → Bool → List Char → Except Stop (List Json × List Char)
  | 0, _, _, _ => .error ⟨.endInList, 0⟩
  | fuel + 1, depth, first, cs => do
    match ← nextItem first cs with
    | none => return ([], cs.drop 1)
    | some cs =>
      let (x, rest) ← readValue fuel depth cs
      let (xs, rest) ← readItems fuel depth false (skipBlank rest)
      return (x :: xs, rest)

/-- The members of an object up to its closing brace. -/
def readMembers : Nat → Nat → Bool → List Char → Except Stop (List (String × Json) × List Char)
  | 0, _, _, _ => .error ⟨.endInObject, 0⟩
  | fuel + 1, depth, first, cs => do
    match ← nextMember first cs with
    | none => return ([], cs.drop 1)
    | some cs =>
      let (name, rest) ← readString fuel cs
      let rest ← readColon rest
      let (x, rest) ← readValue fuel depth rest
      let (ms, rest) ← readMembers fuel depth false (skipBlank rest)
      return ((name, x) :: ms, rest)

end

/-- Nothing but white space may follow a whole text. -/
def expectEnd (cs : List Char) : Except Stop Unit :=
  match skipBlank cs with
  | [] => .ok ()
  | rest => .error (stopAt .trailingCharacters rest)

/-- How many lists and objects may be open at once in a document. -/
def depthLimit : Nat := 127

/-- The fuel for a text: more than any reader uses on it. -/
def fuelFor (text : List Char) : Nat :=
  2 * text.length + 2

/-- The value of a whole text in which at most `depth` lists and objects are open at once. -/
def parseWithin (depth : Nat) (text : List Char) : Except Stop Json := do
  let (value, rest) ← readValue (fuelFor text) depth text
  expectEnd rest
  return value

/-- The value of a whole document. -/
def parse (text : List Char) : Except Stop Json :=
  parseWithin depthLimit text

/-- The message of a stop, with the line and the column it names. -/
def Stop.message (text : List Char) (stop : Stop) : String :=
  let place := Text.lineColumn text (byteLength text - stop.unread)
  stop.reason.message ++ " at line " ++ toString place.1 ++ " column " ++ toString place.2

end ScopeCheck.Json
