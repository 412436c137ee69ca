import ScopeCheck.Toml.Number
import ScopeCheck.Toml.Table

/-!
# Reading TOML documents

* `readValue`: a scalar, an array or an inline table.
* `readLine`: a header, an entry, a comment or an empty line.
* `parse`: the root table of a whole text.
* `Complaint.message`: the message that shows the line of a complaint.

Every reader that recurses takes a fuel that exceeds the length of the text: each step consumes
at least one character, so the fuel never runs out.
-/

namespace ScopeCheck.Toml

/-! ## Values -/

/-- What the text of a value may start with when it is not one of the other values. -/
def notAValue : String :=
  "invalid string\nexpected `\"`, `'`"

/-- A word that is a value. -/
def readWord (word : List Char) (value : Scalar) (cur : Cursor) :
    Except Complaint (Scalar × Cursor) :=
  match cur.word? word with
  | some after => .ok (value, after)
  | none => cur.decline notAValue

/-- A value that holds no other values. -/
def readScalar (fuel : Nat) (cur : Cursor) : Except Complaint (Scalar × Cursor) :=
  match cur.peek? with
  | none => cur.decline ""
  | some c =>
    if c = '\"' || c = '\'' then do
      let (s, after) ← readString fuel cur
      return (.string s, after)
    else if c = '+' || c = '-' || isDigit c then readNumber fuel cur
    else if c = '_' then cur.decline "invalid integer\nexpected leading digit"
    else if c = '.' then cur.decline "invalid floating-point number\nexpected leading digit"
    else if c = 't' then final (readWord ['t', 'r', 'u', 'e'] (.boolean true) cur)
    else if c = 'f' then final (readWord ['f', 'a', 'l', 's', 'e'] (.boolean false) cur)
    else if c = 'i' then readWord ['i', 'n', 'f'] (.float Decimal.Binary64.infinity) cur
    else if c = 'n' then readWord ['n', 'a', 'n'] (.float Decimal.Binary64.notANumber) cur
    else cur.decline notAValue

/-- The inline table of its entries. -/
def inlineTable (span : Extent) (entries : List (List Key × Key × Node)) : Except Clash Node := do
  let table ← entries.foldlM
    (fun (table : Table) (path, key, node) => table.put none path key node)
    ⟨{ span := some span, inline := true }, []⟩
  return table.toNode

/-- A clash among entries that start at the cursor. -/
def settle {α : Type} (cur : Cursor) (label : String) : Except Clash α → Except Complaint α
  | .ok x => .ok x
  | .error clash => cur.complain (label ++ clash.message)

/-- Items with commas between them.  Where the next item does not start, the comma in front of it
is left. -/
def readSeparated {α : Type} (item : Cursor → Except Complaint (α × Cursor)) :
    Nat → Cursor → Except Complaint (List α × Cursor)
  | 0, cur => .ok ([], cur)
  | fuel + 1, cur =>
    match item cur with
    | .error complaint => if complaint.final then .error complaint else .ok ([], cur)
    | .ok (x, after) =>
      if after.peek? = some ',' then
        match readSeparated item fuel after.next with
        | .error complaint => .error complaint
        | .ok ([], _) => .ok ([x], after)
        | .ok (y :: ys, rest) => .ok (x :: y :: ys, rest)
      else .ok ([x], after)

/-- An item of an array, with the space around it. -/
def readItem {α : Type} (value : Cursor → Except Complaint (α × Cursor)) (fuel : Nat)
    (cur : Cursor) : Except Complaint (α × Cursor) := do
  let (x, after) ← value (← skipSpace fuel cur)
  return (x, ← skipSpace fuel after)

/-- The items of an array and its closing bracket; a comma may follow the last item. -/
def readItems {α : Type} (value : Cursor → Except Complaint (α × Cursor)) (fuel : Nat)
    (cur : Cursor) : Except Complaint (List α × Cursor) := do
  let (items, after) ← readSeparated (readItem value fuel) fuel cur
  let after := if !items.isEmpty && after.peek? = some ',' then after.next else after
  let after ← final (skipSpace fuel after)
  if after.peek? = some ']' then return (items, after.next)
  else after.complain "invalid array\nexpected `]`"

/-- An entry of an inline table, with the blanks around it. -/
def readEntry (value : Cursor → Except Complaint (Node × Cursor)) (fuel : Nat) (cur : Cursor) :
    Except Complaint ((List Key × Key × Node) × Cursor) := do
  let (path, key, after) ← readKey fuel cur
  if after.peek? = some '=' then
    let (node, after) ← final (value (skipBlank after.next))
    return ((path, key, node), skipBlank after)
  else after.complain "expected `.`, `=`"

/-- The entries of an inline table and its closing brace, which is looked for last. -/
def readEntries (value : Cursor → Except Complaint (Node × Cursor)) (fuel : Nat)
    (start cur : Cursor) :
    Except Complaint (Node × Cursor) := do
  let (entries, after) ← readSeparated (readEntry value fuel) fuel cur
  let after := skipBlank after
  let node ← settle cur "" (inlineTable ⟨start.offset, after.next.offset⟩ entries)
  if after.peek? = some '}' then return (node, after.next)
  else after.complain "invalid inline table\nexpected `\x7d`"

/-- A value below `level` arrays and inline tables. -/
def readValue : Nat → Nat → Cursor → Except Complaint (Node × Cursor)
  | 0, _, cur => cur.complain notAValue
  | fuel + 1, level, cur =>
    let tooDeep : Bool := depthLimit ≤ level + 1
    match cur.peek? with
    | some '[' =>
      if tooDeep then cur.complain "recursion limit exceeded"
      else do
        let (items, after) ← readItems (readValue fuel (level + 1)) fuel cur.next
        return (.array items ⟨cur.offset, after.offset⟩, after)
    | some '{' =>
      if tooDeep then cur.complain "recursion limit exceeded"
      else readEntries (readValue fuel (level + 1)) fuel cur cur.next
    | _ => do
      let (value, after) ← readScalar fuel cur
      return (.scalar value ⟨cur.offset, after.offset⟩, after)

/-! ## Lines -/

/-- An entry and the end of its line. -/
def readEntryLine (fuel : Nat) (outline : Outline) (cur : Cursor) :
    Except Complaint (Outline × Cursor) := do
  let (path, key, after) ← readKey fuel cur
  if after.peek? = some '=' then
    let (node, after) ← readValue fuel 0 (skipBlank after.next)
    let after ← readLineRest "expected newline, `#`" after
    let outline ← settle cur "" (outline.entry path key node)
    return (outline, after)
  else after.complain "expected `.`, `=`"

/-- The label of what is wrong with a header. -/
def headerLabel : String :=
  "invalid table header\n"

/-- A header and the end of its line. -/
def readHeaderLine (fuel : Nat) (outline : Outline) (cur : Cursor) :
    Except Complaint (Outline × Cursor) := do
  if cur.next.rest.isEmpty then cur.complain "invalid table header"
  let (inArray, start, close) := match cur.word? ['[', '['] with
    | some start => (true, start, [']', ']'])
    | none => (false, cur.next, [']'])
  let (path, key, after) ← readKey fuel start
  match after.word? close with
  | none =>
    after.complain (headerLabel ++ "expected `.`, " ++ if inArray then "`]]`" else "`]`")
  | some closed =>
    let after ← readLineRest (headerLabel ++ "expected newline, `#`") closed
    let span : Extent := ⟨cur.offset, closed.offset⟩
    let outline ← settle cur headerLabel
      (if inArray then outline.arrayHeader path key span else outline.header path key span)
    return (outline, after)

/-- The lines of a document. -/
def readLines : Nat → Outline → Cursor → Except Complaint Outline
  | 0, _, cur => cur.complain ""
  | fuel + 1, outline, cur =>
    let cur := skipBlank cur
    match cur.peek? with
    | none => .ok outline
    | some c =>
      if c = '#' then do
        let after ← readLineEnd "" (skipComment cur)
        readLines fuel outline after
      else if c = '[' then do
        let (outline, after) ← readHeaderLine fuel outline cur
        readLines fuel outline after
      else if c = '\n' || c = '\r' then do
        let after ← readLineEnd "" cur
        readLines fuel outline after
      else do
        let (outline, after) ← readEntryLine fuel outline cur
        readLines fuel outline after

/-- The root table of a whole text.  A byte order mark at its start is passed over. -/
def parse (text : List Char) : Except Complaint Table := do
  let fuel := 2 * text.length + 2
  let start : Cursor := ⟨text, 0⟩
  let outline ← readLines fuel {} ((start.word? ['\uFEFF']).getD start)
  settle start "" outline.finish

/-! ## Messages -/

/-- The characters of the line with a number, from 0. -/
def lineAt : Nat → List Char → List Char
  | 0, cs => cs.takeWhile (· ≠ '\n')
  | n + 1, cs => lineAt n ((cs.dropWhile (· ≠ '\n')).drop 1)

/-- The line and the column, both from 0, of a byte offset.  Columns count characters, except in
front of a character of several bytes, where they count bytes. -/
def lineColumn (text : List Char) (offset : Nat) : Nat × Nat :=
  let rec go (line chars bytes : Nat) : Nat → List Char → Nat × Nat
    | _, [] => (line, chars)
    | n, c :: cs =>
      if n < c.utf8Size then (line, if c.utf8Size = 1 then chars else bytes + n)
      else if c = '\n' && !cs.isEmpty then go (line + 1) 0 0 (n - 1) cs
      else go line (chars + 1) (bytes + c.utf8Size) (n - c.utf8Size) cs
  go 0 0 0 offset text

/-- A message that shows the line of a span, with marks under the span. -/
def message (text : List Char) (span : Option Extent) (reason : String) : String :=
  match span with
  | none => reason ++ "\n"
  | some span =>
    let (line, column) := lineColumn text span.start
    let content := lineAt line text
    let number := toString (line + 1)
    let gutter := String.ofList (List.replicate (number.length + 1) ' ') ++ "|"
    let marks := min (span.stop - span.start) (Text.byteLength content - column)
    "TOML parse error at line " ++ number ++ ", column " ++ toString (column + 1) ++ "\n" ++
      gutter ++ "\n" ++
      number ++ " | " ++ String.ofList content ++ "\n" ++
      gutter ++ String.ofList (List.replicate (column + 1) ' ') ++
        String.ofList (List.replicate (max marks 1) '^') ++ "\n" ++
      reason ++ "\n"

/-- The size of the first character behind a byte offset. -/
def sizeAt : Nat → List Char → Nat
  | _, [] => 0
  | n, c :: cs => if n < c.utf8Size then c.utf8Size else sizeAt (n - c.utf8Size) cs

/-- The message of a complaint, with one character marked. -/
def Complaint.message (text : List Char) (complaint : Complaint) : String :=
  Toml.message text
    (some ⟨complaint.offset, complaint.offset + sizeAt complaint.offset text⟩) complaint.reason

end ScopeCheck.Toml
