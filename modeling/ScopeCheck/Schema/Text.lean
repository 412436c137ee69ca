import ScopeCheck.Json.Skip
import ScopeCheck.Schema.Value

/-!
# Schemas and JSON texts

A value is read straight off the text, so a fault of the data stops the reader before what is
malformed further on.  A fault of a scalar is placed after it and a fault of a list or an object in
front of it.  A fault of a record or of a choice of forms has no place of its own and takes the
place where the record or list around it ends.

* `Refusal`: why and where a reader refused.
* `Schema.read`: the value at the start of a text.
* `Schema.parse`: the value of a whole text.
-/

namespace ScopeCheck

open ScopeCheck.Json
open ScopeCheck.Text (byteLength)

/-- Why a text was refused. -/
inductive Cause where
  | malformed (reason : Malformed)
  | fault (fault : Fault)
  deriving DecidableEq, Repr

def Cause.message : Cause → String
  | malformed reason => reason.message
  | fault f => f.message

/-- Why and where a reader refused. -/
inductive Refusal where
  /-- The place is given by the number of bytes after it. -/
  | placed (cause : Cause) (unread : Nat)
  /-- A fault without a place yet, and the text that was left when it was found. -/
  | unplaced (fault : Fault) (rest : List Char)
  deriving DecidableEq, Repr

def Refusal.ofStop (stop : Stop) : Refusal :=
  .placed (.malformed stop.reason) stop.unread

/-- The result of a reader of malformed places, as one of refusals. -/
def lift {α : Type} : Except Stop α → Except Refusal α
  | .ok x => .ok x
  | .error stop => .error (.ofStop stop)

/-- A fault in front of a text. -/
def faultBefore (fault : Fault) (rest : List Char) : Refusal :=
  .placed (.fault fault) (byteLength rest)

/-! ## The end of a list or an object -/

/-- The text after the end of the object that a reader gave up in. -/
def leaveObject (cs : List Char) : List Char :=
  match skipBlank cs with
  | '}' :: rest => rest
  | rest => rest

/-- The text after the end of the list that a reader gave up in, or after a comma. -/
def leaveList (cs : List Char) : List Char :=
  match skipBlank cs with
  | ']' :: rest => rest
  | ',' :: rest => skipBlank rest
  | rest => rest

/-- Gives a fault without a place the place behind what it was found in. -/
def Refusal.settle (leave : List Char → List Char) : Refusal → Refusal
  | placed cause unread => placed cause unread
  | unplaced fault rest => faultBefore fault (leave rest)

/-- The end of a list of which all that was asked for has been read. -/
def closeList (cs : List Char) : Except Stop (List Char) :=
  match skipBlank cs with
  | [] => .error (stopBefore .endInList [])
  | ']' :: rest => .ok rest
  | ',' :: rest =>
    match skipBlank rest with
    | ']' :: rest => .error (stopAt .trailingComma (']' :: rest))
    | rest => .error (stopAt .trailingCharacters rest)
  | rest => .error (stopAt .trailingCharacters rest)

/-! ## Scalars -/

/-- The refusal of a value of another kind than expected. -/
def unexpected (expected : String) (fuel : Nat) (cs : List Char) : Refusal :=
  match cs with
  | '[' :: _ => faultBefore (.wrongType .sequence expected) cs
  | '{' :: _ => faultBefore (.wrongType .map expected) cs
  | _ =>
    match readScalar fuel cs with
    | .ok (j, rest) => faultBefore (.wrongType (.ofJson j) expected) rest
    | .error stop => .ofStop stop

/-- A text. -/
def readText (fuel : Nat) (cs : List Char) : Except Refusal (String × List Char) :=
  match skipBlank cs with
  | '\"' :: rest => lift (readString fuel rest)
  | cs => .error (unexpected "a string" fuel cs)

/-- A flag. -/
def readFlag (fuel : Nat) (cs : List Char) : Except Refusal (Bool × List Char) :=
  match skipBlank cs with
  | 't' :: rest =>
    match readWord ['r', 'u', 'e'] rest with
    | .ok rest => .ok (true, rest)
    | .error stop => .error (.ofStop stop)
  | 'f' :: rest =>
    match readWord ['a', 'l', 's', 'e'] rest with
    | .ok rest => .ok (false, rest)
    | .error stop => .error (.ofStop stop)
  | cs => .error (unexpected "a boolean" fuel cs)

/-- A count in a range. -/
def readCount (range : Range) (fuel : Nat) (cs : List Char) : Except Refusal (Nat × List Char) :=
  match skipBlank cs with
  | [] => .error (unexpected range.name fuel [])
  | c :: rest =>
    if c = '-' ∨ (digit? c).isSome then
      match readNumber (c :: rest) with
      | .error stop => .error (.ofStop stop)
      | .ok (.integer n, rest) =>
        match range.ofInt n with
        | .ok n => .ok (n, rest)
        | .error fault => .error (faultBefore fault rest)
      | .ok (.float x, rest) =>
        .error (faultBefore (.wrongType (.float x.compact) range.name) rest)
    else .error (unexpected range.name fuel (c :: rest))

/-- A value that may be null. -/
def readOrNull {α : Type} (read : List Char → Except Refusal (α × List Char)) (cs : List Char) :
    Except Refusal (Option α × List Char) :=
  match skipBlank cs with
  | 'n' :: rest =>
    match readWord ['u', 'l', 'l'] rest with
    | .ok rest => .ok (none, rest)
    | .error stop => .error (.ofStop stop)
  | cs =>
    match read cs with
    | .ok (x, rest) => .ok (some x, rest)
    | .error refusal => .error refusal

/-! ## Lists and objects -/

/-- The items of a list up to its closing bracket, which stays. -/
def readElements {α : Type} (item : List Char → Except Refusal (α × List Char)) :
    Nat → Bool → List Char → Except Refusal (List α × List Char)
  | 0, _, cs => .error (.ofStop (stopBefore .endInList cs))
  | fuel + 1, first, cs =>
    match nextItem first (skipBlank cs) with
    | .error stop => .error (.ofStop stop)
    | .ok none => .ok ([], skipBlank cs)
    | .ok (some cs) =>
      match item cs with
      | .error refusal => .error refusal
      | .ok (x, rest) =>
        match readElements item fuel false rest with
        | .error refusal => .error refusal
        | .ok (xs, rest) => .ok (x :: xs, rest)

/-- The members of an object up to its closing brace, which stays.  `put` reads the value of one
member behind its name. -/
def readSlots {σ : Type} (put : String → σ → List Char → Except Refusal (σ × List Char)) :
    Nat → Bool → σ → List Char → Except Refusal (σ × List Char)
  | 0, _, _, cs => .error (.ofStop (stopBefore .endInObject cs))
  | fuel + 1, first, slots, cs =>
    match nextMember first (skipBlank cs) with
    | .error stop => .error (.ofStop stop)
    | .ok none => .ok (slots, skipBlank cs)
    | .ok (some cs) =>
      match readString fuel cs with
      | .error stop => .error (.ofStop stop)
      | .ok (name, rest) =>
        match put name slots rest with
        | .error refusal => .error refusal
        | .ok (slots, rest) => readSlots put fuel false slots rest

/-- The value of a member behind its name, and the colon before it. -/
def readMember {α : Type} (read : List Char → Except Refusal (α × List Char)) (cs : List Char) :
    Except Refusal (α × List Char) :=
  match readColon cs with
  | .error stop => .error (.ofStop stop)
  | .ok rest => read rest

/-- The value of a member whose slot has to be empty. -/
def readOnce {α : Type} (field : String) (read : List Char → Except Refusal (α × List Char))
    (slot : Option α) (cs : List Char) : Except Refusal (Option α × List Char) :=
  match slot with
  | some _ => .error (.unplaced (.duplicateField field) cs)
  | none =>
    match readMember read cs with
    | .error refusal => .error refusal
    | .ok (x, rest) => .ok (some x, rest)

mutual

/-- The value at the start of a text, in which `depth` lists and objects may still be opened. -/
def Schema.read (fuel : Nat) : {α : Type} → Schema α → Nat → List Char →
    Except Refusal (α × List Char)
  | _, .text, _, cs => readText fuel cs
  | _, .flag, _, cs => readFlag fuel cs
  | _, .count range, _, cs => readCount range fuel cs
  | _, .list item, depth, cs =>
    match skipBlank cs with
    | '[' :: rest =>
      match depth with
      | 0 => .error (.ofStop (stopAt .tooDeep ('[' :: rest)))
      | depth + 1 =>
        match readElements (item.read fuel depth) fuel true rest with
        | .error refusal => .error (refusal.settle leaveList)
        | .ok (xs, rest) =>
          match closeList rest with
          | .ok rest => .ok (xs, rest)
          | .error stop => .error (.ofStop stop)
    | cs => .error (unexpected "a sequence" fuel cs)
  | _, .either name left right, depth, cs =>
    match readValue fuel depth cs with
    | .error stop => .error (.ofStop stop)
    | .ok (j, rest) =>
      match left.decode j with
      | .ok a => .ok (.inl a, rest)
      | .error _ =>
        match right.decode j with
        | .ok b => .ok (.inr b, rest)
        | .error _ => .error (.unplaced (.noVariant name) rest)
  | _, .record name fields, depth, cs =>
    match skipBlank cs with
    | '[' :: rest =>
      match depth with
      | 0 => .error (.ofStop (stopAt .tooDeep ('[' :: rest)))
      | depth + 1 =>
        match fields.readByPosition fuel name fields.size 0 true depth rest with
        | .error refusal => .error (refusal.settle leaveList)
        | .ok (row, rest) =>
          match closeList rest with
          | .ok rest => .ok (row, rest)
          | .error stop => .error (.ofStop stop)
    | '{' :: rest =>
      match depth with
      | 0 => .error (.ofStop (stopAt .tooDeep ('{' :: rest)))
      | depth + 1 =>
        match readSlots (fun name slots cs => fields.readInto fuel name depth slots cs) fuel true
            fields.noSlots rest with
        | .error refusal => .error (refusal.settle leaveObject)
        | .ok (slots, rest) =>
          match fields.complete slots with
          | .ok row => .ok (row, leaveObject rest)
          | .error fault => .error (faultBefore fault (leaveObject rest))
    | cs => .error (unexpected ("struct " ++ name) fuel cs)
  | _, .via item pack _, depth, cs =>
    match item.read fuel depth cs with
    | .ok (x, rest) => .ok (pack x, rest)
    | .error refusal => .error refusal

/-- Reads the value of a member into the slot of its field; the value of a name that no field has
is passed over. -/
def Fields.readInto (fuel : Nat) : {ts : List Type} → Fields ts → String → Nat → Slots ts →
    List Char → Except Refusal (Slots ts × List Char)
  | _, .nil, _, _, (), cs =>
    match readColon cs with
    | .error stop => .error (.ofStop stop)
    | .ok rest =>
      match skipValue fuel rest with
      | .error stop => .error (.ofStop stop)
      | .ok rest => .ok ((), rest)
  | _, .required field item rest, name, depth, (slot, slots), cs =>
    if name = field then
      match readOnce field (item.read fuel depth) slot cs with
      | .ok (slot, cs) => .ok ((slot, slots), cs)
      | .error refusal => .error refusal
    else
      match rest.readInto fuel name depth slots cs with
      | .ok (slots, cs) => .ok ((slot, slots), cs)
      | .error refusal => .error refusal
  | _, .defaulted field _ item rest, name, depth, (slot, slots), cs =>
    if name = field then
      match readOnce field (item.read fuel depth) slot cs with
      | .ok (slot, cs) => .ok ((slot, slots), cs)
      | .error refusal => .error refusal
    else
      match rest.readInto fuel name depth slots cs with
      | .ok (slots, cs) => .ok ((slot, slots), cs)
      | .error refusal => .error refusal
  | _, .optional field item rest, name, depth, (slot, slots), cs =>
    if name = field then
      match readOnce field (readOrNull (item.read fuel depth)) slot cs with
      | .ok (slot, cs) => .ok ((slot, slots), cs)
      | .error refusal => .error refusal
    else
      match rest.readInto fuel name depth slots cs with
      | .ok (slots, cs) => .ok ((slot, slots), cs)
      | .error refusal => .error refusal

/-- The fields of a record given by position, from the field with a number on. -/
def Fields.readByPosition (fuel : Nat) : {ts : List Type} → Fields ts → String → Nat → Nat →
    Bool → Nat → List Char → Except Refusal (Row ts × List Char)
  | _, .nil, _, _, _, _, _, cs => .ok ((), cs)
  | _, .required _ item rest, record, size, index, first, depth, cs =>
    match nextItem first (skipBlank cs) with
    | .error stop => .error (.ofStop stop)
    | .ok none => .error (.unplaced (.tooShort index record size) (skipBlank cs))
    | .ok (some cs) =>
      match item.read fuel depth cs with
      | .error refusal => .error refusal
      | .ok (x, cs) =>
        match rest.readByPosition fuel record size (index + 1) false depth cs with
        | .ok (row, cs) => .ok ((x, row), cs)
        | .error refusal => .error refusal
  | _, .defaulted _ value item rest, record, size, index, first, depth, cs =>
    match nextItem first (skipBlank cs) with
    | .error stop => .error (.ofStop stop)
    | .ok none =>
      match rest.readByPosition fuel record size (index + 1) first depth cs with
      | .ok (row, cs) => .ok ((value, row), cs)
      | .error refusal => .error refusal
    | .ok (some cs) =>
      match item.read fuel depth cs with
      | .error refusal => .error refusal
      | .ok (x, cs) =>
        match rest.readByPosition fuel record size (index + 1) false depth cs with
        | .ok (row, cs) => .ok ((x, row), cs)
        | .error refusal => .error refusal
  | _, .optional _ item rest, record, size, index, first, depth, cs =>
    match nextItem first (skipBlank cs) with
    | .error stop => .error (.ofStop stop)
    | .ok none =>
      match rest.readByPosition fuel record size (index + 1) first depth cs with
      | .ok (row, cs) => .ok ((none, row), cs)
      | .error refusal => .error refusal
    | .ok (some cs) =>
      match readOrNull (item.read fuel depth) cs with
      | .error refusal => .error refusal
      | .ok (x, cs) =>
        match rest.readByPosition fuel record size (index + 1) false depth cs with
        | .ok (row, cs) => .ok ((x, row), cs)
        | .error refusal => .error refusal

end

/-- Why a text does not hold the data asked for, and the number of bytes after the place where
that shows. -/
structure Mistake where
  cause : Cause
  unread : Option Nat
  deriving DecidableEq, Repr

/-- A fault that nothing around it gave a place keeps none. -/
def Refusal.toMistake : Refusal → Mistake
  | placed cause unread => ⟨cause, some unread⟩
  | unplaced fault _ => ⟨.fault fault, none⟩

/-- The message of a mistake in a text. -/
def Mistake.message (text : List Char) (mistake : Mistake) : String :=
  match mistake.unread with
  | none => mistake.cause.message
  | some unread =>
    let place := Text.lineColumn text (byteLength text - unread)
    mistake.cause.message ++ " at line " ++ toString place.1 ++ " column " ++ toString place.2

/-- The value of a whole text. -/
def Schema.parse {α : Type} (schema : Schema α) (text : List Char) : Except Mistake α :=
  match schema.read (fuelFor text) depthLimit text with
  | .error refusal => .error refusal.toMistake
  | .ok (x, rest) =>
    match expectEnd rest with
    | .ok () => .ok x
    | .error stop => .error (Refusal.ofStop stop).toMistake

end ScopeCheck
