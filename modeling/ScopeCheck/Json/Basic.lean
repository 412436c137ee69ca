import ScopeCheck.Decimal

/-!
# JSON values

* `Json`: a value.  An object is the list of its members in the order in which they are kept.
* `Json.member?`: the value of a member.
* `Json.insert`: sets a member and keeps the members sorted by name.
* `Json.escape`, `Json.write`: a character of a string and a value as they are written.
-/

namespace ScopeCheck

/-- A JSON value.  A number without a fraction and without an exponent is an integer. -/
inductive Json where
  | null
  | bool (value : Bool)
  | integer (value : Int)
  | float (value : Decimal.Binary64)
  | str (value : String)
  | arr (items : List Json)
  | obj (members : List (String × Json))

namespace Json

/-- The value of the first member with a name. -/
def member? (name : String) : Json → Option Json
  | obj members => (members.find? fun m => m.1 = name).map Prod.snd
  | _ => none

/-- The text of a string value. -/
def str? : Json → Option String
  | str s => some s
  | _ => none

/-- Sets a member among members sorted by name; a member of that name is replaced. -/
def insert (name : String) (value : Json) : List (String × Json) → List (String × Json)
  | [] => [(name, value)]
  | m :: ms =>
    if name = m.1 then (name, value) :: ms
    else if name < m.1 then (name, value) :: m :: ms
    else m :: insert name value ms

/-- An object from its members in the order of the text: sorted by name, and of two members with
one name the later one stays. -/
def ofMembers (members : List (String × Json)) : Json :=
  obj (members.foldl (fun sorted m => insert m.1 m.2 sorted) [])

/-! ## Writing

The written form has no blanks.  Inside a string the quote, the backslash and the control
characters are escaped, and every other character stands for itself. -/

/-- A hexadecimal digit, in lower case. -/
def hexDigit (n : Nat) : Char :=
  if n < 10 then Char.ofNat (48 + n) else Char.ofNat (87 + n)

/-- How a character is written inside a string. -/
def escape (c : Char) : List Char :=
  if c = '\"' then ['\\', '\"']
  else if c = '\\' then ['\\', '\\']
  else if c = '\x08' then ['\\', 'b']
  else if c = '\x0C' then ['\\', 'f']
  else if c = '\n' then ['\\', 'n']
  else if c = '\r' then ['\\', 'r']
  else if c = '\t' then ['\\', 't']
  else if c.toNat < 32 then
    ['\\', 'u', '0', '0', hexDigit (c.toNat / 16), hexDigit (c.toNat % 16)]
  else [c]

/-- A string between its quotes. -/
def writeString (s : String) : List Char :=
  '\"' :: (s.toList.flatMap escape ++ ['\"'])

/-- A whole number in decimal digits. -/
def writeInteger : Int → List Char
  | .ofNat n => Nat.toDigits 10 n
  | .negSucc n => '-' :: Nat.toDigits 10 (n + 1)

mutual

/-- A value without blanks. -/
def write : Json → List Char
  | null => ['n', 'u', 'l', 'l']
  | bool true => ['t', 'r', 'u', 'e']
  | bool false => ['f', 'a', 'l', 's', 'e']
  | integer n => writeInteger n
  | float x => x.compact.toList
  | str s => writeString s
  | arr [] => ['[', ']']
  | arr (x :: xs) => '[' :: (write x ++ writeItems xs)
  | obj [] => ['{', '}']
  | obj ((name, x) :: ms) => '{' :: (writeString name ++ ':' :: (write x ++ writeMembers ms))

/-- The items after the first, and the closing bracket. -/
def writeItems : List Json → List Char
  | [] => [']']
  | x :: xs => ',' :: (write x ++ writeItems xs)

/-- The members after the first, and the closing brace. -/
def writeMembers : List (String × Json) → List Char
  | [] => ['}']
  | (name, x) :: ms => ',' :: (writeString name ++ ':' :: (write x ++ writeMembers ms))

end

/-- The written form as a string. -/
def render (value : Json) : String :=
  String.ofList value.write

end Json

end ScopeCheck
