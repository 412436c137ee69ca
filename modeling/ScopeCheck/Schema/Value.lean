import ScopeCheck.Json.Basic
import ScopeCheck.Schema.Basic
import ScopeCheck.Text.Quoted

/-!
# Schemas and JSON values

* `Schema.encode`: the JSON value that a value is written as.
* `Schema.decode`: the value that a JSON value stands for.

Records are written as objects and read from objects or, by position, from lists.  Members that no
field names are ignored.
-/

namespace ScopeCheck

/-- What a JSON value is, for a fault. -/
def Found.ofJson : Json → Found
  | .null => .null
  | .bool b => .boolean b
  | .integer n => .integer n
  | .float x => .float x.compact
  | .str s => .string (Text.quoted s)
  | .arr _ => .sequence
  | .obj _ => .map

/-! ## Writing -/

mutual

/-- The JSON value that a value is written as. -/
def Schema.encode : {α : Type} → Schema α → α → Json
  | _, .text, s => .str s
  | _, .flag, b => .bool b
  | _, .count _, n => .integer (n : Nat)
  | _, .list item, xs => .arr (xs.map item.encode)
  | _, .either _ left right, x =>
    match x with
    | .inl a => left.encode a
    | .inr b => right.encode b
  | _, .record _ fields, row => .obj (fields.encode row)
  | _, .via item _ unpack, x => item.encode (unpack x)

/-- The members that the fields of a record are written as.  A field that is unset is left out. -/
def Fields.encode : {ts : List Type} → Fields ts → Row ts → List (String × Json)
  | _, .nil, () => []
  | _, .required name item rest, (x, row) => (name, item.encode x) :: rest.encode row
  | _, .defaulted name _ item rest, (x, row) => (name, item.encode x) :: rest.encode row
  | _, .optional name item rest, (x, row) =>
    match x with
    | some x => (name, item.encode x) :: rest.encode row
    | none => rest.encode row

end

/-! ## Reading -/

/-- Reads every item, up to the first that fails. -/
def readAll {α β ε : Type} (read : α → Except ε β) : List α → Except ε (List β)
  | [] => .ok []
  | x :: xs =>
    match read x with
    | .error e => .error e
    | .ok y =>
      match readAll read xs with
      | .error e => .error e
      | .ok ys => .ok (y :: ys)

/-- Puts the members of an object into slots, one after the other. -/
def fillSlots {α β σ ε : Type} (put : α → β → σ → Except ε σ) : List (α × β) → σ → Except ε σ
  | [], slots => .ok slots
  | (name, x) :: members, slots =>
    match put name x slots with
    | .error e => .error e
    | .ok slots => fillSlots put members slots

/-- A count in a range. -/
def Range.ofInt (range : Range) (n : Int) : Except Fault Nat :=
  if 0 ≤ n ∧ n < range.limit then .ok n.toNat
  else .error (.wrongValue (.integer n) range.name)

/-- Reads the value of a field that is not filled yet. -/
def fillOnce {α β ε : Type} (twice : ε) (read : β → Except ε α) (x : β) :
    Option α → Except ε (Option α)
  | some _ => .error twice
  | none =>
    match read x with
    | .error e => .error e
    | .ok a => .ok (some a)

/-- The value of a field that may be null. -/
def orNull {α ε : Type} (read : Json → Except ε α) : Json → Except ε (Option α)
  | .null => .ok none
  | x =>
    match read x with
    | .error e => .error e
    | .ok a => .ok (some a)

mutual

/-- The value that a JSON value stands for. -/
def Schema.decode : {α : Type} → Schema α → Json → Except Fault α
  | _, .text, j =>
    match j with
    | .str s => .ok s
    | j => .error (.wrongType (.ofJson j) "a string")
  | _, .flag, j =>
    match j with
    | .bool b => .ok b
    | j => .error (.wrongType (.ofJson j) "a boolean")
  | _, .count range, j =>
    match j with
    | .integer n => range.ofInt n
    | j => .error (.wrongType (.ofJson j) range.name)
  | _, .list item, j =>
    match j with
    | .arr xs => readAll item.decode xs
    | j => .error (.wrongType (.ofJson j) "a sequence")
  | _, .either name left right, j =>
    match left.decode j with
    | .ok a => .ok (.inl a)
    | .error _ =>
      match right.decode j with
      | .ok b => .ok (.inr b)
      | .error _ => .error (.noVariant name)
  | _, .record name fields, j =>
    match j with
    | .obj members =>
      match fillSlots fields.put members fields.noSlots with
      | .ok slots => fields.complete slots
      | .error fault => .error fault
    | .arr xs =>
      match fields.byPosition name fields.size 0 xs with
      | .ok (row, []) => .ok row
      | .ok (_, _ :: _) => .error (.tooLong xs.length)
      | .error fault => .error fault
    | j => .error (.wrongType (.ofJson j) ("struct " ++ name))
  | _, .via item pack _, j =>
    match item.decode j with
    | .ok x => .ok (pack x)
    | .error fault => .error fault

/-- Puts one member of an object into the slot of its field. -/
def Fields.put : {ts : List Type} → Fields ts → String → Json → Slots ts → Except Fault (Slots ts)
  | _, .nil, _, _, () => .ok ()
  | _, .required field item rest, name, j, (slot, slots) =>
    if name = field then
      match fillOnce (.duplicateField field) item.decode j slot with
      | .ok slot => .ok (slot, slots)
      | .error fault => .error fault
    else
      match rest.put name j slots with
      | .ok slots => .ok (slot, slots)
      | .error fault => .error fault
  | _, .defaulted field _ item rest, name, j, (slot, slots) =>
    if name = field then
      match fillOnce (.duplicateField field) item.decode j slot with
      | .ok slot => .ok (slot, slots)
      | .error fault => .error fault
    else
      match rest.put name j slots with
      | .ok slots => .ok (slot, slots)
      | .error fault => .error fault
  | _, .optional field item rest, name, j, (slot, slots) =>
    if name = field then
      match fillOnce (.duplicateField field) (orNull item.decode) j slot with
      | .ok slot => .ok (slot, slots)
      | .error fault => .error fault
    else
      match rest.put name j slots with
      | .ok slots => .ok (slot, slots)
      | .error fault => .error fault

/-- The fields of a record given by position, and the items left over. -/
def Fields.byPosition : {ts : List Type} → Fields ts → String → Nat → Nat → List Json →
    Except Fault (Row ts × List Json)
  | _, .nil, _, _, _, xs => .ok ((), xs)
  | _, .required _ item rest, record, size, index, xs =>
    match xs with
    | [] => .error (.tooShort index record size)
    | x :: xs =>
      match item.decode x with
      | .error fault => .error fault
      | .ok a =>
        match rest.byPosition record size (index + 1) xs with
        | .ok (row, left) => .ok ((a, row), left)
        | .error fault => .error fault
  | _, .defaulted _ value item rest, record, size, index, xs =>
    match xs with
    | [] =>
      match rest.byPosition record size (index + 1) [] with
      | .ok (row, left) => .ok ((value, row), left)
      | .error fault => .error fault
    | x :: xs =>
      match item.decode x with
      | .error fault => .error fault
      | .ok a =>
        match rest.byPosition record size (index + 1) xs with
        | .ok (row, left) => .ok ((a, row), left)
        | .error fault => .error fault
  | _, .optional _ item rest, record, size, index, xs =>
    match xs with
    | [] =>
      match rest.byPosition record size (index + 1) [] with
      | .ok (row, left) => .ok ((none, row), left)
      | .error fault => .error fault
    | x :: xs =>
      match orNull item.decode x with
      | .error fault => .error fault
      | .ok a =>
        match rest.byPosition record size (index + 1) xs with
        | .ok (row, left) => .ok ((a, row), left)
        | .error fault => .error fault

end

end ScopeCheck
