import ScopeCheck.Toml.Basic
import ScopeCheck.Text.Bytes

/-!
# Reading TOML: characters, blanks and keys

* `Cursor`: the text that is left and its byte offset.
* `Complaint`: where and why reading stopped, and whether something else may stand there.
* `readString`: the four kinds of strings.
* `readKey`: a dotted key.
-/

namespace ScopeCheck.Toml

/-- The text that is left, and the number of bytes before it. -/
structure Cursor where
  rest : List Char
  offset : Nat := 0

/-- Where and why reading stopped. -/
structure Complaint where
  offset : Nat
  reason : String
  /-- What was begun can be nothing else, so that the whole text is refused. -/
  final : Bool := true
  deriving DecidableEq, Repr

/-- Makes a complaint final. -/
def final {α : Type} : Except Complaint α → Except Complaint α
  | .ok x => .ok x
  | .error complaint => .error { complaint with final := true }

namespace Cursor

/-- The next character. -/
def peek? (cur : Cursor) : Option Char :=
  cur.rest.head?

/-- The cursor behind the next character. -/
def next (cur : Cursor) : Cursor :=
  match cur.rest with
  | [] => cur
  | c :: rest => ⟨rest, cur.offset + c.utf8Size⟩

/-- The cursor behind a given word, if the text goes on with it. -/
def word? (cur : Cursor) : List Char → Option Cursor
  | [] => some cur
  | w :: word =>
    match cur.rest with
    | [] => none
    | c :: rest => if c = w then word? ⟨rest, cur.offset + c.utf8Size⟩ word else none

/-- The characters up to the first outside a class, and the cursor in front of that one. -/
def takeWhile (p : Char → Bool) (cur : Cursor) : List Char × Cursor :=
  let taken := cur.rest.takeWhile p
  (taken, ⟨cur.rest.dropWhile p, cur.offset + Text.byteLength taken⟩)

/-- The cursor behind the characters of a class. -/
def skipWhile (p : Char → Bool) (cur : Cursor) : Cursor :=
  (cur.takeWhile p).2

/-- The cursor behind a line break: a line feed, alone or after a carriage return. -/
def newline? (cur : Cursor) : Option Cursor :=
  match cur.rest with
  | '\n' :: rest => some ⟨rest, cur.offset + 1⟩
  | '\r' :: '\n' :: rest => some ⟨rest, cur.offset + 2⟩
  | _ => none

/-- Reading stops at the cursor. -/
def complain {α : Type} (cur : Cursor) (reason : String) : Except Complaint α :=
  .error ⟨cur.offset, reason, true⟩

/-- What is asked for does not start at the cursor, but something else may. -/
def decline {α : Type} (cur : Cursor) (reason : String) : Except Complaint α :=
  .error ⟨cur.offset, reason, false⟩

end Cursor

/-! ## Blanks and comments -/

/-- Blanks within a line. -/
def isBlank (c : Char) : Bool :=
  c = ' ' || c = '\t'

/-- Characters above the ASCII range stand for themselves everywhere in strings and comments. -/
def isForeign (c : Char) : Bool :=
  0x80 ≤ c.toNat

/-- What a comment may hold. -/
def isCommentChar (c : Char) : Bool :=
  c = '\t' || (0x20 ≤ c.toNat && c.toNat ≤ 0x7E) || isForeign c

def skipBlank (cur : Cursor) : Cursor :=
  cur.skipWhile isBlank

/-- The cursor behind a comment, if there is one. -/
def skipComment (cur : Cursor) : Cursor :=
  match cur.rest with
  | '#' :: _ => cur.next.skipWhile isCommentChar
  | _ => cur

/-- The end of a line: a line break or the end of the text. -/
def readLineEnd (reason : String) (cur : Cursor) : Except Complaint Cursor :=
  match cur.rest with
  | [] => .ok cur
  | _ =>
    match cur.newline? with
    | some cur => .ok cur
    | none => cur.complain reason

/-- What may follow on a line: blanks, a comment, the end of the line. -/
def readLineRest (reason : String) (cur : Cursor) : Except Complaint Cursor :=
  readLineEnd reason (skipComment (skipBlank cur))

/-- A line break. -/
def readBreak (cur : Cursor) : Except Complaint Cursor :=
  match cur.newline? with
  | some after => .ok after
  | none => (if cur.peek? = some '\r' then cur.next else cur).decline ""

/-- Blanks, line breaks, and comments with the line breaks behind them. -/
def skipSpace : Nat → Cursor → Except Complaint Cursor
  | 0, cur => .ok cur
  | fuel + 1, cur => do
    let cur := skipBlank cur
    match cur.peek? with
    | some '#' => skipSpace fuel (← readBreak (skipComment cur))
    | some '\n' => skipSpace fuel (← readBreak cur)
    | some '\r' => skipSpace fuel (← readBreak cur)
    | _ => return cur

/-! ## Strings -/

/-- The value of a hexadecimal digit. -/
def hexDigit? (c : Char) : Option Nat :=
  if '0' ≤ c ∧ c ≤ '9' then some (c.toNat - 48)
  else if 'a' ≤ c ∧ c ≤ 'f' then some (c.toNat - 87)
  else if 'A' ≤ c ∧ c ≤ 'F' then some (c.toNat - 55)
  else none

/-- The value of a run of hexadecimal digits. -/
def hexValue (digits : List Char) : Nat :=
  digits.foldl (fun n c => n * 16 + (hexDigit? c).getD 0) 0

/-- A character by its number, in a fixed number of hexadecimal digits. -/
def readCodePoint (size : Nat) (cur : Cursor) : Except Complaint (Char × Cursor) :=
  let digits := (cur.rest.take size).takeWhile fun c => (hexDigit? c).isSome
  let reason := "invalid unicode " ++ toString size ++ "-digit hex code"
  if digits.length < size then cur.complain reason
  else
    let n := hexValue digits
    if h : n.isValidChar then .ok (Char.ofNatAux n h, ⟨cur.rest.drop size, cur.offset + size⟩)
    else cur.complain (reason ++ "\nvalue is out of range")

/-- An escape after its backslash.  Of a character that makes no escape, only the first byte is
read. -/
def readEscape (cur : Cursor) : Except Complaint (Char × Cursor) :=
  match cur.peek? with
  | some 'b' => .ok ('\x08', cur.next)
  | some 'f' => .ok ('\x0C', cur.next)
  | some 'n' => .ok ('\n', cur.next)
  | some 'r' => .ok ('\r', cur.next)
  | some 't' => .ok ('\t', cur.next)
  | some '\\' => .ok ('\\', cur.next)
  | some '\"' => .ok ('\"', cur.next)
  | some 'u' => readCodePoint 4 cur.next
  | some 'U' => readCodePoint 8 cur.next
  | found =>
    (if found.all fun c => c.utf8Size = 1 then cur.next else cur).complain
      "invalid escape sequence\nexpected `b`, `f`, `n`, `r`, `t`, `u`, `U`, `\\`, `\"`"

/-- What a basic string holds unescaped. -/
def isBasicChar (c : Char) : Bool :=
  isBlank c || c = '!' || (0x23 ≤ c.toNat && c.toNat ≤ 0x5B) ||
    (0x5D ≤ c.toNat && c.toNat ≤ 0x7E) || isForeign c

/-- What a literal string holds. -/
def isLiteralChar (c : Char) : Bool :=
  c = '\t' || (0x20 ≤ c.toNat && c.toNat ≤ 0x26) || (0x28 ≤ c.toNat && c.toNat ≤ 0x7E) ||
    isForeign c

/-- A basic string after its opening quote. -/
def readBasic : Nat → Cursor → Except Complaint (List Char × Cursor)
  | 0, cur => cur.complain "invalid basic string"
  | fuel + 1, cur =>
    match cur.peek? with
    | none => cur.complain "invalid basic string"
    | some c =>
      if c = '\"' then .ok ([], cur.next)
      else if c = '\\' && !cur.next.rest.isEmpty then do
        let (d, cur) ← readEscape cur.next
        let (ds, cur) ← readBasic fuel cur
        return (d :: ds, cur)
      else if isBasicChar c then do
        let (ds, cur) ← readBasic fuel cur.next
        return (c :: ds, cur)
      else cur.complain "invalid basic string"

/-- A literal string after its opening quote. -/
def readLiteral (cur : Cursor) : Except Complaint (List Char × Cursor) :=
  let (cs, cur) := cur.takeWhile isLiteralChar
  if cur.peek? = some '\'' then .ok (cs, cur.next) else cur.complain "invalid literal string"

/-- The quotes at the end of a long string: three close it, and up to two before them belong to
it. -/
def closingQuotes? (quote : Char) (cur : Cursor) : Option (List Char × Cursor) :=
  let count := ((cur.rest.take 5).takeWhile fun c => c = quote).length
  if count < 3 then none
  else some (List.replicate (count - 3) quote, ⟨cur.rest.drop count, cur.offset + count⟩)

/-- The cursor behind the quotes in front of it. -/
def skipQuotes (quote : Char) (cur : Cursor) : Cursor :=
  cur.skipWhile fun c => c = quote

/-- The cursor behind a line break that is escaped, with the blanks after it. -/
def escapedBreak? (fuel : Nat) (cur : Cursor) : Option Cursor :=
  match (skipBlank cur).newline? with
  | none => none
  | some cur => some (skip fuel cur)
where
  skip : Nat → Cursor → Cursor
    | 0, cur => cur
    | fuel + 1, cur =>
      let cur := skipBlank cur
      match cur.newline? with
      | some cur => skip fuel cur
      | none => cur

/-- A long basic string after its opening quotes and a line break behind them. -/
def readLongBasic : Nat → Cursor → Except Complaint (List Char × Cursor)
  | 0, cur => cur.complain "invalid multiline basic string"
  | fuel + 1, cur =>
    match closingQuotes? '\"' cur with
    | some closed => .ok closed
    | none =>
      match cur.newline? with
      | some cur => do
        let (ds, cur) ← readLongBasic fuel cur
        return ('\n' :: ds, cur)
      | none =>
        match cur.peek? with
        | none => cur.complain "invalid multiline basic string"
        | some c =>
          if (skipQuotes '\"' cur).rest.isEmpty || cur.next.rest.isEmpty && c = '\\' then
            cur.complain "invalid multiline basic string"
          else if c = '\\' then
            match escapedBreak? fuel cur.next with
            | some cur => readLongBasic fuel cur
            | none => do
              let (d, cur) ← readEscape cur.next
              let (ds, cur) ← readLongBasic fuel cur
              return (d :: ds, cur)
          else if isBasicChar c || c = '\"' then do
            let (ds, cur) ← readLongBasic fuel cur.next
            return (c :: ds, cur)
          else cur.complain "invalid multiline basic string"

/-- A long literal string after its opening quotes and a line break behind them. -/
def readLongLiteral : Nat → Cursor → Except Complaint (List Char × Cursor)
  | 0, cur => cur.complain "invalid multiline literal string"
  | fuel + 1, cur =>
    match closingQuotes? '\'' cur with
    | some closed => .ok closed
    | none =>
      match cur.newline? with
      | some cur => do
        let (ds, cur) ← readLongLiteral fuel cur
        return ('\n' :: ds, cur)
      | none =>
        match cur.peek? with
        | none => cur.complain "invalid multiline literal string"
        | some c =>
          let behind := skipQuotes '\'' cur
          if isLiteralChar c ||
              c = '\'' && (behind.newline?.isSome || behind.peek?.any isLiteralChar) then do
            let (ds, cur) ← readLongLiteral fuel cur.next
            return (c :: ds, cur)
          else cur.complain "invalid multiline literal string"

/-- A string at its opening quote, which tells its kind. -/
def readString (fuel : Nat) (cur : Cursor) : Except Complaint (String × Cursor) := do
  let afterBreak (cur : Cursor) : Cursor := cur.newline?.getD cur
  let (cs, cur) ←
    match cur.word? ['\"', '\"', '\"'] with
    | some cur => readLongBasic fuel (afterBreak cur)
    | none =>
      match cur.word? ['\'', '\'', '\''] with
      | some cur => readLongLiteral fuel (afterBreak cur)
      | none => if cur.peek? = some '\"' then readBasic fuel cur.next else readLiteral cur.next
  return (String.ofList cs, cur)

/-! ## Keys -/

/-- One part of a key; nothing when no key starts here. -/
def readPart? (fuel : Nat) (cur : Cursor) : Except Complaint (Option (Key × Cursor)) := do
  match cur.peek? with
  | some '\"' =>
    let (cs, after) ← readBasic fuel cur.next
    return some (⟨String.ofList cs, ⟨cur.offset, after.offset⟩⟩, after)
  | some '\'' =>
    let (cs, after) ← readLiteral cur.next
    return some (⟨String.ofList cs, ⟨cur.offset, after.offset⟩⟩, after)
  | _ =>
    let (cs, after) := cur.takeWhile isBareChar
    if cs.isEmpty then return none
    else return some (⟨String.ofList cs, ⟨cur.offset, after.offset⟩⟩, after)

/-- The parts of a key after its first; a point without a part behind it is left. -/
def readParts : Nat → Cursor → Except Complaint (List Key × Cursor)
  | 0, cur => .ok ([], cur)
  | fuel + 1, cur => do
    if cur.peek? = some '.' then
      match ← readPart? fuel (skipBlank cur.next) with
      | none => return ([], cur)
      | some (key, after) =>
        let (keys, after) ← readParts fuel (skipBlank after)
        return (key :: keys, after)
    else return ([], cur)

/-- How deep arrays, inline tables and keys may go. -/
def depthLimit : Nat := 80

/-- A dotted key with the blanks around it: the path to the last part, and that part. -/
def readKey (fuel : Nat) (cur : Cursor) : Except Complaint (List Key × Key × Cursor) := do
  let start := skipBlank cur
  match ← readPart? fuel start with
  | none => start.decline "invalid key"
  | some (first, after) =>
    let (more, after) ← readParts fuel (skipBlank after)
    let keys := first :: more
    if depthLimit ≤ keys.length then cur.decline "recursion limit exceeded"
    else return (keys.dropLast, keys.getLast?.getD first, after)

end ScopeCheck.Toml
