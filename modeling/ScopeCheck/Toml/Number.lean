import ScopeCheck.Toml.Cursor

/-!
# Reading TOML: numbers and moments

What starts with a digit or a sign is a date, a time, a number with a fraction or an exponent, or
a whole number; the first of these that fits is taken.

* `readMoment?`: a date, a time, or both.
* `readFloat?`: a number with a fraction or an exponent, an infinity or no number.
* `readInteger`: a whole number of 64 bits.
* `readNumber`: any of them.
-/

namespace ScopeCheck.Toml

open ScopeCheck.Decimal (Binary64)

/-- A decimal digit. -/
def isDigit (c : Char) : Bool :=
  '0' ≤ c && c ≤ '9'

/-- The value of decimal digits; underscores between them are ignored. -/
def decimalValue (digits : List Char) : Nat :=
  digits.foldl (fun n c => if c = '_' then n else n * 10 + (c.toNat - 48)) 0

/-! ## Dates and times -/

/-- A fixed number of decimal digits. -/
def digits? (size : Nat) (cur : Cursor) : Option (Nat × Cursor) :=
  let digits := (cur.rest.take size).takeWhile isDigit
  if digits.length < size then none
  else some (decimalValue digits, ⟨cur.rest.drop size, cur.offset + size⟩)

/-- Two digits in a range of values. -/
def twoDigits? (low high : Nat) (cur : Cursor) : Option (Nat × Cursor) :=
  match digits? 2 cur with
  | some (n, cur) => if low ≤ n ∧ n ≤ high then some (n, cur) else none
  | none => none

/-- The second line of a reason when digits are there and their value is not allowed. -/
def outOfRange : String :=
  "\nvalue is out of range"

/-- Two digits in a range of values, which have to be there. -/
def readTwoDigits (label : String) (low high : Nat) (cur : Cursor) :
    Except Complaint (Nat × Cursor) :=
  match twoDigits? low high cur with
  | some found => .ok found
  | none => cur.complain (label ++ if (digits? 2 cur).isSome then outOfRange else "")

/-- A character that has to be there. -/
def readMark (label : String) (c : Char) (cur : Cursor) : Except Complaint Cursor :=
  match cur.word? [c] with
  | some after => .ok after
  | none => cur.complain label

/-- The number of days of a month. -/
def daysIn (year month : Nat) : Nat :=
  if month = 2 then
    if year % 4 = 0 ∧ (year % 100 ≠ 0 ∨ year % 400 = 0) then 29 else 28
  else if month = 4 ∨ month = 6 ∨ month = 9 ∨ month = 11 then 30
  else 31

/-- A date, once its year and the dash behind it have been read. -/
def readMonthDay (year : Nat) (cur : Cursor) : Except Complaint Cursor := do
  let label := "invalid date-time"
  let (month, cur) ← readTwoDigits label 1 12 cur
  let cur ← readMark label '-' cur
  let (day, after) ← readTwoDigits label 1 31 cur
  if daysIn year month < day then cur.complain (label ++ outOfRange) else return after

/-- The fraction of a second, if there is one. -/
def skipFraction (cur : Cursor) : Cursor :=
  match cur.word? ['.'] with
  | none => cur
  | some after => if after.peek?.any isDigit then after.skipWhile isDigit else cur

/-- A time; nothing when no hour with a colon starts here.  A minute may have a second 60. -/
def readTime? (label : String) (cur : Cursor) : Except Complaint (Option Cursor) :=
  match (twoDigits? 0 23 cur).bind fun hour => hour.2.word? [':'] with
  | none => .ok none
  | some cur => do
    let (_, cur) ← readTwoDigits label 0 59 cur
    let cur ← readMark label ':' cur
    let (_, cur) ← readTwoDigits label 0 60 cur
    return some (skipFraction cur)

/-- The offset of a time zone, if there is one. -/
def readZone (cur : Cursor) : Except Complaint Cursor :=
  match cur.peek? with
  | some 'Z' => .ok cur.next
  | some 'z' => .ok cur.next
  | some c =>
    if c = '+' || c = '-' then do
      let label := "invalid time offset"
      let (_, cur) ← readTwoDigits label 0 23 cur.next
      let cur ← readMark label ':' cur
      let (_, cur) ← readTwoDigits label 0 59 cur
      return cur
    else .ok cur
  | none => .ok cur

/-- A date, a time, or both; nothing when neither starts here. -/
def readMoment? (cur : Cursor) : Except Complaint (Option Cursor) := do
  let dated := match digits? 4 cur with
    | none => none
    | some (year, after) => (after.word? ['-']).map fun after => (year, after)
  match dated with
  | none => readTime? "invalid time" cur
  | some (year, after) =>
    let after ← readMonthDay year after
    let delimited := match after.peek? with
      | some c => c = 'T' || c = 't' || c = ' '
      | none => false
    if delimited then
      match ← readTime? "invalid date-time" after.next with
      | none => return some after
      | some after => return some (← readZone after)
    else return some after

/-! ## Numbers -/

/-- Digits of a class, with single underscores between them, after a first digit. -/
def readDigits (p : Char → Bool) (reason : String) :
    Nat → Cursor → Except Complaint (List Char × Cursor)
  | 0, cur => .ok ([], cur)
  | fuel + 1, cur =>
    match cur.peek? with
    | none => .ok ([], cur)
    | some c =>
      if p c then do
        let (cs, cur) ← readDigits p reason fuel cur.next
        return (c :: cs, cur)
      else if c = '_' then
        if cur.next.peek?.any p then readDigits p reason fuel cur.next
        else cur.next.complain reason
      else .ok ([], cur)

/-- Digits of a class, at least one of them.  `reason` is what is wrong without any, and `within`
what is wrong behind an underscore. -/
def readDigitsOne (p : Char → Bool) (reason within : String) (fuel : Nat) (cur : Cursor) :
    Except Complaint (List Char × Cursor) :=
  if cur.peek?.any p then readDigits p within fuel cur else cur.complain reason

/-- The sign in front of a number. -/
def readSign (cur : Cursor) : Bool × Cursor :=
  match cur.peek? with
  | some '+' => (false, cur.next)
  | some '-' => (true, cur.next)
  | _ => (false, cur)

/-- The digits of a whole number: a single zero, or digits that do not start with one. -/
def readWhole? (fuel : Nat) (cur : Cursor) : Except Complaint (Option (List Char × Cursor)) := do
  match cur.peek? with
  | some '0' => return some (['0'], cur.next)
  | some c =>
    if isDigit c then
      return some (← readDigits isDigit "invalid integer\nexpected digit" fuel cur)
    else return none
  | none => return none

/-- The double nearest to `digits · 10 ^ exponent`. -/
def nearestDecimal (digits : List Char) (exponent : Int) : Binary64 :=
  let significand := decimalValue digits
  let size : Int := (Nat.toDigits 10 significand).length
  if significand = 0 || size + exponent < -330 then Binary64.zero
  else if 310 < size + exponent then Binary64.infinity
  else Binary64.nearest ⟨significand * Nat.pow 10 exponent.toNat, Nat.pow 10 (-exponent).toNat⟩

/-- What is wrong with a number that has a fraction or an exponent. -/
def notAFloat : String :=
  "invalid floating-point number"

/-- The exponent of a number, if there is one. -/
def readExponent (fuel : Nat) (cur : Cursor) : Except Complaint (Option Int × Cursor) := do
  match cur.peek? with
  | some c =>
    if c = 'e' || c = 'E' then
      let (negative, cur) := readSign cur.next
      let (digits, cur) ←
        readDigitsOne isDigit notAFloat (notAFloat ++ "\nexpected digit") fuel cur
      let n : Int := decimalValue digits
      return (some (if negative then -n else n), cur)
    else return (none, cur)
  | none => return (none, cur)

/-- An infinity or no number. -/
def special? (cur : Cursor) : Option (Binary64 × Cursor) :=
  match cur.word? ['i', 'n', 'f'] with
  | some cur => some (Binary64.infinity, cur)
  | none => (cur.word? ['n', 'a', 'n']).map fun cur => (Binary64.notANumber, cur)

/-- A number with a fraction or an exponent; nothing when no such number starts here.  A number
too large for a double is refused. -/
def readFloat? (fuel : Nat) (cur : Cursor) : Except Complaint (Option (Binary64 × Cursor)) := do
  let (negative, start) := readSign cur
  let signed (x : Binary64) : Binary64 := if negative then x.negate else x
  let finish (digits : List Char) (exponent : Int) (after : Cursor) :
      Except Complaint (Option (Binary64 × Cursor)) :=
    let x := signed (nearestDecimal digits exponent)
    if x = Binary64.infinity then cur.complain notAFloat else .ok (some (x, after))
  match ← readWhole? fuel start with
  | none => return (special? start).map fun (x, after) => (signed x, after)
  | some (whole, after) =>
    match after.peek? with
    | some '.' =>
      let (fraction, after) ← readDigitsOne isDigit (notAFloat ++ "\nexpected digit")
        (notAFloat ++ "\nexpected digit, digit") fuel after.next
      let (exponent, after) ← readExponent fuel after
      finish (whole ++ fraction) (exponent.getD 0 - fraction.length) after
    | _ =>
      match ← readExponent fuel after with
      | (some exponent, after) => finish whole exponent after
      | (none, _) => return none

/-- A whole number that fits 64 bits with a sign. -/
def fitting (n : Int) (start after : Cursor) : Except Complaint (Scalar × Cursor) :=
  if -(Nat.pow 2 63) ≤ n ∧ n < Nat.pow 2 63 then .ok (.integer n, after)
  else start.complain
    ("number too " ++ (if n < 0 then "small" else "large") ++ " to fit in target type")

/-- A whole number in hexadecimal, octal or binary digits, after its two leading characters. -/
def readBased (base : Nat) (p : Char → Bool) (label : String) (fuel : Nat) (start cur : Cursor) :
    Except Complaint (Scalar × Cursor) := do
  let (digits, after) ← readDigitsOne p label (label ++ "\nexpected digit") fuel cur
  fitting (digits.foldl (fun n c => n * base + (hexDigit? c).getD 0) 0 : Nat) start after

/-- A whole number. -/
def readInteger (fuel : Nat) (cur : Cursor) : Except Complaint (Scalar × Cursor) :=
  match cur.word? ['0', 'x'] with
  | some after => readBased 16 (fun c => (hexDigit? c).isSome) "invalid hexadecimal integer"
      fuel cur after
  | none =>
    match cur.word? ['0', 'o'] with
    | some after => readBased 8 (fun c => '0' ≤ c && c ≤ '7') "invalid octal integer" fuel cur after
    | none =>
      match cur.word? ['0', 'b'] with
      | some after => readBased 2 (fun c => c = '0' || c = '1') "invalid binary integer"
          fuel cur after
      | none => do
        let (negative, start) := readSign cur
        match ← readWhole? fuel start with
        | none => start.decline "invalid integer"
        | some (digits, after) =>
          let n : Int := decimalValue digits
          fitting (if negative then -n else n) cur after

/-- What starts with a digit or a sign. -/
def readNumber (fuel : Nat) (cur : Cursor) : Except Complaint (Scalar × Cursor) := do
  match ← readMoment? cur with
  | some after => return (.moment, after)
  | none =>
    match ← readFloat? fuel cur with
    | some (x, after) => return (.float x, after)
    | none => readInteger fuel cur

end ScopeCheck.Toml
