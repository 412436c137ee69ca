import ScopeCheck.Json.Reader

/-!
# Passing over JSON values

A value that nobody asked for is passed over and not built.  Its form is checked less closely:
numbers may be of any size, escaped surrogates need no partner, and nesting has no limit.

* `skipString`, `skipNumber`: scalars.
* `skipValue`: any value.
-/

namespace ScopeCheck.Json

/-- The text after a string whose opening quote has been read. -/
def skipString : Nat → List Char → Except Stop (List Char)
  | 0, _ => .error ⟨.endInString, 0⟩
  | _ + 1, [] => .error ⟨.endInString, 0⟩
  | fuel + 1, c :: cs =>
    if c = '\"' then .ok cs
    else if c = '\\' then
      match cs with
      | [] => .error ⟨.endInString, 0⟩
      | d :: rest =>
        if (escaped? d).isSome then skipString fuel rest
        else if d = 'u' then do
          let (_, rest) ← readHex rest
          skipString fuel rest
        else .error (stopAt .invalidEscape (d :: rest))
    else if c.toNat < 32 then .error (stopBefore .controlCharacter (c :: cs))
    else skipString fuel cs

/-- The exponent part of a number after its `e`. -/
def skipExponent (cs : List Char) : Except Stop (List Char) :=
  let cs := match cs with
    | '+' :: cs => cs
    | '-' :: cs => cs
    | cs => cs
  if startsDigit cs then .ok (dropDigits cs) else .error (stopAt .invalidNumber cs)

/-- What follows the digits of a number. -/
def skipTail (cs : List Char) : Except Stop (List Char) :=
  match cs with
  | 'e' :: cs => skipExponent cs
  | 'E' :: cs => skipExponent cs
  | cs => .ok cs

/-- What follows the whole part of a number. -/
def skipAfterWhole (cs : List Char) : Except Stop (List Char) :=
  match cs with
  | '.' :: cs =>
    if startsDigit cs then skipTail (dropDigits cs) else .error (stopAt .invalidNumber cs)
  | cs => skipTail cs

/-- A number after its minus sign. -/
def skipNumber (cs : List Char) : Except Stop (List Char) :=
  match cs with
  | [] => .error (stopAt .invalidNumber [])
  | c :: rest =>
    match digit? c with
    | none => .error (stopAt .invalidNumber (c :: rest))
    | some 0 =>
      if startsDigit rest then .error (stopAt .invalidNumber rest) else skipAfterWhole rest
    | some _ => skipAfterWhole (dropDigits rest)

/-- A value that is neither a list nor an object. -/
def skipScalar (fuel : Nat) (cs : List Char) : Except Stop (List Char) :=
  match cs with
  | [] => .error (stopBefore .endInValue [])
  | c :: rest =>
    if c = '\"' then skipString fuel rest
    else if c = 'n' then readWord ['u', 'l', 'l'] rest
    else if c = 't' then readWord ['r', 'u', 'e'] rest
    else if c = 'f' then readWord ['a', 'l', 's', 'e'] rest
    else if c = '-' then skipNumber rest
    else if (digit? c).isSome then skipNumber (c :: rest)
    else .error (stopAt .expectedValue (c :: rest))

/-- A quoted name and the colon behind it. -/
def skipName (fuel : Nat) (cs : List Char) : Except Stop (List Char) :=
  match cs with
  | [] => .error (stopBefore .endInObject [])
  | c :: rest =>
    if c = '\"' then do
      let rest ← skipString fuel rest
      readColon rest
    else .error (stopAt .keyNotString (c :: rest))

mutual

/-- The text after a value. -/
def skipValue : Nat → List Char → Except Stop (List Char)
  | 0, _ => .error ⟨.endInValue, 0⟩
  | fuel + 1, cs =>
    match skipBlank cs with
    | '[' :: rest =>
      match skipBlank rest with
      | [] => .error (stopBefore .endInList [])
      | ']' :: rest => .ok rest
      | rest => do
        let rest ← skipValue fuel rest
        skipItems fuel (skipBlank rest)
    | '{' :: rest =>
      match skipBlank rest with
      | [] => .error (stopBefore .endInObject [])
      | '}' :: rest => .ok rest
      | rest => do
        let rest ← skipName fuel rest
        let rest ← skipValue fuel rest
        skipMembers fuel (skipBlank rest)
    | cs => skipScalar fuel cs

/-- The items of a list after its first, and the closing bracket. -/
def skipItems : Nat → List Char → Except Stop (List Char)
  | 0, _ => .error ⟨.endInList, 0⟩
  | fuel + 1, cs =>
    match cs with
    | [] => .error (stopBefore .endInList [])
    | c :: rest =>
      if c = ']' then .ok rest
      else if c = ',' then do
        let rest ← skipValue fuel rest
        skipItems fuel (skipBlank rest)
      else .error (stopAt .expectedListEnd (c :: rest))

/-- The members of an object after its first, and the closing brace. -/
def skipMembers : Nat → List Char → Except Stop (List Char)
  | 0, _ => .error ⟨.endInObject, 0⟩
  | fuel + 1, cs =>
    match cs with
    | [] => .error (stopBefore .endInObject [])
    | c :: rest =>
      if c = '}' then .ok rest
      else if c = ',' then do
        let rest ← skipName fuel (skipBlank rest)
        let rest ← skipValue fuel rest
        skipMembers fuel (skipBlank rest)
      else .error (stopAt .expectedObjectEnd (c :: rest))

end

end ScopeCheck.Json
