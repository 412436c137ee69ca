import ScopeCheck.Proofs.JsonText
import ScopeCheck.Schema.Text

/-!
# Fields, and what a schema can carry

The fields of a record come in three kinds, and everything a record does with them differs only in
what a field does with its own value.  `Field` is a single field apart from those behind it, and the
lemmas of the form `…_cons` say what a record does with its first field and leaves to the others.

* `Field`: one field, with what it writes, reads and takes when it is absent.
* `Schema.Fits`: the values that keep to the ranges of their counts.
* `Schema.Lawful`: the schemas whose values can be told apart in a document.
* `Schema.nesting`: how many lists and objects are open at once in a value as it is written.
-/

namespace ScopeCheck

open ScopeCheck.Json (nextItem skipBlank Reordered)

/-! ## What a schema can carry -/

mutual

/-- Values whose counts are in range. -/
def Schema.Fits : {α : Type} → Schema α → α → Prop
  | _, .text, _ => True
  | _, .flag, _ => True
  | _, .count range, n => n < range.limit
  | _, .list item, xs => ∀ x ∈ xs, item.Fits x
  | _, .either _ left right, x =>
    match x with
    | .inl a => left.Fits a
    | .inr b => right.Fits b
  | _, .record _ fields, row => fields.Fits row
  | _, .via item _ unpack, x => item.Fits (unpack x)

def Fields.Fits : {ts : List Type} → Fields ts → Row ts → Prop
  | _, .nil, () => True
  | _, .required _ item rest, (x, row) => item.Fits x ∧ rest.Fits row
  | _, .defaulted _ _ item rest, (x, row) => item.Fits x ∧ rest.Fits row
  | _, .optional _ item rest, (x, row) => (∀ a ∈ x, item.Fits a) ∧ rest.Fits row

end

mutual

/-- How many lists and objects are open at once in a value as it is written. -/
def Schema.nesting : {α : Type} → Schema α → Nat
  | _, .text => 0
  | _, .flag => 0
  | _, .count _ => 0
  | _, .list item => item.nesting + 1
  | _, .either _ left right => max left.nesting right.nesting
  | _, .record _ fields => fields.nesting + 1
  | _, .via item _ _ => item.nesting

def Fields.nesting : {ts : List Type} → Fields ts → Nat
  | _, .nil => 0
  | _, .required _ item rest => max item.nesting rest.nesting
  | _, .defaulted _ _ item rest => max item.nesting rest.nesting
  | _, .optional _ item rest => max item.nesting rest.nesting

end

/-- The names of fields. -/
def Fields.names : {ts : List Type} → Fields ts → List String
  | _, .nil => []
  | _, .required name _ rest => name :: rest.names
  | _, .defaulted name _ _ rest => name :: rest.names
  | _, .optional name _ rest => name :: rest.names

mutual

/-- Schemas under which no two values look alike: the fields of a record have different names, the
first of two forms does not fit what the second one writes, and a change of representation loses
nothing. -/
def Schema.Lawful : {α : Type} → Schema α → Prop
  | _, .text => True
  | _, .flag => True
  | _, .count range => range.limit ≤ 2 ^ 64
  | _, .list item => item.Lawful
  | _, .either _ left right =>
    left.Lawful ∧ right.Lawful ∧
      ∀ b j, Reordered (right.encode b) j → ∃ fault, left.decode j = .error fault
  | _, .record _ fields => fields.names.Nodup ∧ fields.Lawful
  | _, .via item pack unpack =>
    item.Lawful ∧ (∀ x, pack (unpack x) = x) ∧ ∀ a, unpack (pack a) = a

def Fields.Lawful : {ts : List Type} → Fields ts → Prop
  | _, .nil => True
  | _, .required _ item rest => item.Lawful ∧ rest.Lawful
  | _, .defaulted _ value item rest => item.Lawful ∧ item.Fits value ∧ rest.Lawful
  | _, .optional _ item rest => item.Lawful ∧ rest.Lawful

end

/-- Fields met so far whose values keep to the ranges of their counts. -/
def Fields.SlotsFit : {ts : List Type} → Fields ts → Slots ts → Prop
  | _, .nil, () => True
  | _, .required _ item rest, (slot, slots) => (∀ x ∈ slot, item.Fits x) ∧ rest.SlotsFit slots
  | _, .defaulted _ _ item rest, (slot, slots) => (∀ x ∈ slot, item.Fits x) ∧ rest.SlotsFit slots
  | _, .optional _ item rest, (slot, slots) =>
    (∀ x ∈ slot, ∀ a ∈ x, item.Fits a) ∧ rest.SlotsFit slots

/-! ## One field -/

/-- A field of a record apart from the fields behind it. -/
inductive Field : Type → Type 1
  | required {α : Type} (name : String) (item : Schema α) : Field α
  | defaulted {α : Type} (name : String) (value : α) (item : Schema α) : Field α
  | optional {α : Type} (name : String) (item : Schema α) : Field (Option α)

namespace Field

variable {β : Type} {ts : List Type}

/-- A field in front of others. -/
def cons : {β : Type} → Field β → Fields ts → Fields (β :: ts)
  | _, required name item, rest => .required name item rest
  | _, defaulted name value item, rest => .defaulted name value item rest
  | _, optional name item, rest => .optional name item rest

def name : {β : Type} → Field β → String
  | _, required name _ => name
  | _, defaulted name _ _ => name
  | _, optional name _ => name

/-- What the field is written as, unless it is left out. -/
def encode : {β : Type} → Field β → β → Option Json
  | _, required _ item, x => some (item.encode x)
  | _, defaulted _ _ item, x => some (item.encode x)
  | _, optional _ item, x => x.map item.encode

def decode : {β : Type} → Field β → Json → Except Fault β
  | _, required _ item => item.decode
  | _, defaulted _ _ item => item.decode
  | _, optional _ item => orNull item.decode

def read (fuel depth : Nat) : {β : Type} → Field β → List Char → Except Refusal (β × List Char)
  | _, required _ item => item.read fuel depth
  | _, defaulted _ _ item => item.read fuel depth
  | _, optional _ item => readOrNull (item.read fuel depth)

/-- The value of the field when it is absent, unless it has to be present. -/
def absent : {β : Type} → Field β → Option β
  | _, required _ _ => none
  | _, defaulted _ value _ => some value
  | _, optional _ _ => some none

def Fits : {β : Type} → Field β → β → Prop
  | _, required _ item, x => item.Fits x
  | _, defaulted _ _ item, x => item.Fits x
  | _, optional _ item, x => ∀ a ∈ x, item.Fits a

def nesting : {β : Type} → Field β → Nat
  | _, required _ item => item.nesting
  | _, defaulted _ _ item => item.nesting
  | _, optional _ item => item.nesting

end Field

/-! ## The first field of a record -/

namespace Fields

/-- The members of a record have the names of its fields, in the order of the fields. -/
theorem names_encode : {ts : List Type} → (fields : Fields ts) → (row : Row ts) →
    List.Sublist ((fields.encode row).map Prod.fst) fields.names
  | _, .nil, () => .slnil
  | _, .required name _ rest, (_, row) => (rest.names_encode row).cons_cons name
  | _, .defaulted name _ _ rest, (_, row) => (rest.names_encode row).cons_cons name
  | _, .optional name _ rest, (some _, row) => (rest.names_encode row).cons_cons name
  | _, .optional name _ rest, (none, row) => (rest.names_encode row).cons name

theorem noSlots_fit : {ts : List Type} → (fields : Fields ts) → fields.SlotsFit fields.noSlots
  | _, .nil => trivial
  | _, .required _ _ rest => ⟨fun _ hx => (nomatch hx), rest.noSlots_fit⟩
  | _, .defaulted _ _ _ rest => ⟨fun _ hx => (nomatch hx), rest.noSlots_fit⟩
  | _, .optional _ _ rest => ⟨fun _ hx => (nomatch hx), rest.noSlots_fit⟩

variable {β : Type} {ts : List Type} (field : Field β) (rest : Fields ts)

theorem nesting_cons : (field.cons rest).nesting = max field.nesting rest.nesting := by
  cases field <;> rfl

theorem fits_cons (x : β) (row : Row ts) :
    (field.cons rest).Fits (x, row) ↔ field.Fits x ∧ rest.Fits row := by
  cases field <;> exact Iff.rfl

theorem slotsFit_cons (slot : Option β) (slots : Slots ts) :
    (field.cons rest).SlotsFit (slot, slots) ↔
      (∀ x ∈ slot, field.Fits x) ∧ rest.SlotsFit slots := by
  cases field <;> exact Iff.rfl

theorem noSlots_cons : (field.cons rest).noSlots = (none, rest.noSlots) := by
  cases field <;> rfl

theorem encode_cons (x : β) (row : Row ts) :
    (field.cons rest).encode (x, row) =
      match field.encode x with
      | some j => (field.name, j) :: rest.encode row
      | none => rest.encode row := by
  cases field with
  | required => rfl
  | defaulted => rfl
  | optional => cases x <;> rfl

/-- An absent field takes its own value, and the fault of one that has to be present goes first. -/
theorem complete_cons (slot : Option β) (slots : Slots ts) :
    (field.cons rest).complete (slot, slots) =
      match slot.or field.absent with
      | none => .error (.missingField field.name)
      | some x =>
        match rest.complete slots with
        | .ok row => .ok (x, row)
        | .error fault => .error fault := by
  cases field <;> cases slot <;> rfl

theorem put_cons (name : String) (j : Json) (slot : Option β) (slots : Slots ts) :
    (field.cons rest).put name j (slot, slots) =
      if name = field.name then
        match fillOnce (.duplicateField field.name) field.decode j slot with
        | .ok slot => .ok (slot, slots)
        | .error fault => .error fault
      else
        match rest.put name j slots with
        | .ok slots => .ok (slot, slots)
        | .error fault => .error fault := by
  cases field with
  | required => rfl
  | defaulted => rfl
  | optional field item =>
    by_cases hname : name = field
    · simp only [Field.cons, Field.name, Field.decode, put, hname, if_true]
      cases fillOnce (Fault.duplicateField field) (orNull item.decode) j slot <;> rfl
    · cases hput : rest.put name j slots <;>
        simp only [Field.cons, Field.name, put, hname, if_false, hput]

theorem byPosition_cons (record : String) (size index : Nat) (xs : List Json) :
    (field.cons rest).byPosition record size index xs =
      match xs with
      | [] =>
        match field.absent with
        | none => .error (.tooShort index record size)
        | some x =>
          match rest.byPosition record size (index + 1) [] with
          | .ok (row, left) => .ok ((x, row), left)
          | .error fault => .error fault
      | j :: xs =>
        match field.decode j with
        | .error fault => .error fault
        | .ok x =>
          match rest.byPosition record size (index + 1) xs with
          | .ok (row, left) => .ok ((x, row), left)
          | .error fault => .error fault := by
  cases field with
  | required => cases xs <;> rfl
  | defaulted => cases xs <;> rfl
  | optional field item =>
    cases xs with
    | nil => rfl
    | cons j xs =>
      simp only [Field.cons, Field.decode, byPosition]
      cases orNull item.decode j <;> rfl

theorem readInto_cons (fuel : Nat) (name : String) (depth : Nat) (slot : Option β)
    (slots : Slots ts) (cs : List Char) :
    (field.cons rest).readInto fuel name depth (slot, slots) cs =
      if name = field.name then
        match readOnce field.name (field.read fuel depth) slot cs with
        | .ok (slot, cs) => .ok ((slot, slots), cs)
        | .error refusal => .error refusal
      else
        match rest.readInto fuel name depth slots cs with
        | .ok (slots, cs) => .ok ((slot, slots), cs)
        | .error refusal => .error refusal := by
  cases field with
  | required => rfl
  | defaulted => rfl
  | optional field item =>
    by_cases hname : name = field
    · simp only [Field.cons, Field.name, Field.read, readInto, hname, if_true]
      cases readOnce field (readOrNull (item.read fuel depth)) slot cs <;> rfl
    · cases hread : rest.readInto fuel name depth slots cs <;>
        simp only [Field.cons, Field.name, readInto, hname, if_false, hread]

theorem readByPosition_cons (fuel : Nat) (record : String) (size index : Nat) (first : Bool)
    (depth : Nat) (cs : List Char) :
    (field.cons rest).readByPosition fuel record size index first depth cs =
      match nextItem first (skipBlank cs) with
      | .error stop => .error (.ofStop stop)
      | .ok none =>
        match field.absent with
        | none => .error (.unplaced (.tooShort index record size) (skipBlank cs))
        | some x =>
          match rest.readByPosition fuel record size (index + 1) first depth cs with
          | .ok (row, cs) => .ok ((x, row), cs)
          | .error refusal => .error refusal
      | .ok (some cs) =>
        match field.read fuel depth cs with
        | .error refusal => .error refusal
        | .ok (x, cs) =>
          match rest.readByPosition fuel record size (index + 1) false depth cs with
          | .ok (row, cs) => .ok ((x, row), cs)
          | .error refusal => .error refusal := by
  cases field with
  | required => rfl
  | defaulted => rfl
  | optional field item =>
    simp only [Field.cons, Field.read, Field.absent]
    rw [readByPosition]
    cases nextItem first (skipBlank cs) with
    | error stop => rfl
    | ok next =>
      cases next with
      | none => rfl
      | some cs =>
        simp only
        cases readOrNull (item.read fuel depth) cs <;> rfl

end Fields

end ScopeCheck
