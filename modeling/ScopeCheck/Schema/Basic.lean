/-!
# Schemas

A schema says how the values of a type are laid out in a document: texts, flags, counts, lists,
records with named fields, and a choice between two forms.  The same schema drives the writer and
every reader, so they agree on names, order and defaults.

* `Found`, `Fault`: a document may be well formed and still not hold the data that is asked for:
  what stood where something else was expected, and what is wrong.
* `Row`: the values of the fields of a record, in declaration order.
* `Schema`, `Fields`: the layout of a type, and of the fields of a record.
* `Slots`: the fields of a record met so far.
-/

namespace ScopeCheck

/-! ## Data of the wrong shape -/

/-- What stood at a place of a document. -/
inductive Found where
  | null
  | boolean (value : Bool)
  | integer (value : Int)
  | float (text : String)
  | string (quotedText : String)
  | sequence
  | map
  deriving DecidableEq, Repr

/-- The description of what was found. -/
def Found.describe : Found → String
  | null => "null"
  | boolean true => "boolean `true`"
  | boolean false => "boolean `false`"
  | integer n => "integer `" ++ toString n ++ "`"
  | float text => "floating point `" ++ text ++ "`"
  | string quotedText => "string " ++ quotedText
  | sequence => "sequence"
  | map => "map"

/-- What is wrong with well-formed data. -/
inductive Fault where
  /-- A value of another kind. -/
  | wrongType (found : Found) (expected : String)
  /-- A value of the right kind that is out of range. -/
  | wrongValue (found : Found) (expected : String)
  | missingField (name : String)
  | duplicateField (name : String)
  /-- A record given by position that ends before its last required field. -/
  | tooShort (length : Nat) (record : String) (size : Nat)
  /-- A record given by position with more items than fields. -/
  | tooLong (length : Nat)
  /-- A value that fits none of the forms of a type. -/
  | noVariant (name : String)
  deriving DecidableEq, Repr

/-- The wording of a fault. -/
def Fault.message : Fault → String
  | wrongType found expected => "invalid type: " ++ found.describe ++ ", expected " ++ expected
  | wrongValue found expected => "invalid value: " ++ found.describe ++ ", expected " ++ expected
  | missingField name => "missing field `" ++ name ++ "`"
  | duplicateField name => "duplicate field `" ++ name ++ "`"
  | tooShort length record size =>
    "invalid length " ++ toString length ++ ", expected struct " ++ record ++ " with " ++
      toString size ++ (if size = 1 then " element" else " elements")
  | tooLong length => "invalid length " ++ toString length ++ ", expected fewer elements in array"
  | noVariant name => "data did not match any variant of untagged enum " ++ name

/-! ## Layouts -/

/-- The values of the fields of a record. -/
def Row : List Type → Type
  | [] => Unit
  | α :: ts => α × Row ts

/-- The fields of a record, each with or without its value. -/
def Slots : List Type → Type
  | [] => Unit
  | α :: ts => Option α × Slots ts

/-- The whole numbers from zero up to a limit, and the name of that range. -/
structure Range where
  name : String
  limit : Nat
  deriving DecidableEq, Repr

mutual

/-- The layout of the values of a type. -/
inductive Schema : Type → Type 1
  | text : Schema String
  | flag : Schema Bool
  | count (range : Range) : Schema Nat
  | list {α : Type} (item : Schema α) : Schema (List α)
  /-- The first form that fits. -/
  | either {α β : Type} (name : String) (left : Schema α) (right : Schema β) : Schema (α ⊕ β)
  /-- Named fields; also accepted by position. -/
  | record {ts : List Type} (name : String) (fields : Fields ts) : Schema (Row ts)
  /-- The values of another type, under a change of representation. -/
  | via {α β : Type} (item : Schema α) (pack : α → β) (unpack : β → α) : Schema β

/-- The layout of the fields of a record, in declaration order. -/
inductive Fields : List Type → Type 1
  | nil : Fields []
  /-- A field that has to be present. -/
  | required {α : Type} {ts : List Type} (name : String) (item : Schema α) (rest : Fields ts) :
      Fields (α :: ts)
  /-- A field that takes `value` when it is absent. -/
  | defaulted {α : Type} {ts : List Type} (name : String) (value : α) (item : Schema α)
      (rest : Fields ts) : Fields (α :: ts)
  /-- A field that may be unset; it is absent or null then. -/
  | optional {α : Type} {ts : List Type} (name : String) (item : Schema α) (rest : Fields ts) :
      Fields (Option α :: ts)

end

namespace Fields

/-- No field met yet. -/
def noSlots : {ts : List Type} → Fields ts → Slots ts
  | _, nil => ()
  | _, required _ _ rest => (none, rest.noSlots)
  | _, defaulted _ _ _ rest => (none, rest.noSlots)
  | _, optional _ _ rest => (none, rest.noSlots)

/-- The number of fields. -/
def size : {ts : List Type} → Fields ts → Nat
  | _, nil => 0
  | _, required _ _ rest => rest.size + 1
  | _, defaulted _ _ _ rest => rest.size + 1
  | _, optional _ _ rest => rest.size + 1

/-- The record made of the fields met; the first required field that was not met is missing. -/
def complete : {ts : List Type} → Fields ts → Slots ts → Except Fault (Row ts)
  | _, nil, () => .ok ()
  | _, required name _ rest, (slot, slots) =>
    match slot with
    | none => .error (.missingField name)
    | some x =>
      match rest.complete slots with
      | .ok row => .ok (x, row)
      | .error fault => .error fault
  | _, defaulted _ value _ rest, (slot, slots) =>
    match rest.complete slots with
    | .ok row => .ok (slot.getD value, row)
    | .error fault => .error fault
  | _, optional _ _ rest, (slot, slots) =>
    match rest.complete slots with
    | .ok row => .ok (slot.getD none, row)
    | .error fault => .error fault

end Fields

end ScopeCheck
