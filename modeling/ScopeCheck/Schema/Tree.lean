import ScopeCheck.Schema.Value
import ScopeCheck.Toml.Basic

/-!
# Schemas and TOML trees

A fault is placed at the value it is about, and a fault without a value of its own, such as a
missing field, at the table around it.  A value that fits none of the forms of a type is placed as
the entry it is the value of, and at the array around it when it stands in one.  A record may be
given by position; items behind the last field are ignored.

* `Misfit`: a fault and its place.
* `Schema.ofTree`: the value that a TOML value stands for.
-/

namespace ScopeCheck

open ScopeCheck.Toml (Node Scalar Extent Key)

/-- A fault and the bytes it is about, where they are known. -/
structure Misfit where
  fault : Fault
  span : Option Extent
  deriving DecidableEq, Repr

/-- Gives a misfit without a place the place of what is around it. -/
def Misfit.within (span : Option Extent) (misfit : Misfit) : Misfit :=
  { misfit with span := misfit.span.or span }

/-- What a TOML value is, for a fault.  A date counts as a map. -/
def Found.ofNode : Node → Found
  | .scalar (.string s) _ => .string (Text.quoted s)
  | .scalar (.integer n) _ => .integer n
  | .scalar (.float x) _ => .float x.plain
  | .scalar (.boolean b) _ => .boolean b
  | .scalar .moment _ => .map
  | .array _ _ => .sequence
  | .table _ _ => .map
  | .tables _ => .sequence

/-- A value of another kind than expected. -/
def mistyped {α : Type} (expected : String) (node : Node) : Except Misfit α :=
  .error ⟨.wrongType (.ofNode node) expected, node.span?⟩

/-- The items of a value that is a list. -/
def itemsOf : Node → Option (List Node)
  | .array items _ => some items
  | .tables items => some (items.map fun item => .table item.1 item.2)
  | _ => none

/-- The entries of a value that is a map.  A date has none that a field could name. -/
def entriesOf : Node → Option (List (Key × Node))
  | .table _ entries => some entries
  | .scalar .moment _ => some []
  | _ => none

/-- Places what goes wrong in a value that has no place of its own. -/
def placed {α : Type} (span : Option Extent) : Except Misfit α → Except Misfit α
  | .ok x => .ok x
  | .error misfit => .error (misfit.within span)

/-- A value that may be unset is set wherever it is given. -/
def present {α : Type} (read : Node → Except Misfit α) (node : Node) : Except Misfit (Option α) :=
  match read node with
  | .ok x => .ok (some x)
  | .error misfit => .error misfit

mutual

/-- The value that a TOML value stands for. -/
def Schema.ofTree : {α : Type} → Schema α → Node → Except Misfit α
  | _, .text, node =>
    match node with
    | .scalar (.string s) _ => .ok s
    | node => mistyped "a string" node
  | _, .flag, node =>
    match node with
    | .scalar (.boolean b) _ => .ok b
    | node => mistyped "a boolean" node
  | _, .count range, node =>
    match node with
    | .scalar (.integer n) span =>
      match range.ofInt n with
      | .ok n => .ok n
      | .error fault => .error ⟨fault, some span⟩
    | node => mistyped range.name node
  | _, .list item, node =>
    match itemsOf node with
    | some items => placed node.span? (readAll item.ofTree items)
    | none => mistyped "a sequence" node
  | _, .either name left right, node =>
    match left.ofTree node with
    | .ok a => .ok (.inl a)
    | .error _ =>
      match right.ofTree node with
      | .ok b => .ok (.inr b)
      | .error _ => .error ⟨.noVariant name, none⟩
  | _, .record name fields, node =>
    match entriesOf node with
    | some entries =>
      match fillSlots fields.putTree entries fields.noSlots with
      | .error misfit => .error (misfit.within node.span?)
      | .ok slots =>
        match fields.complete slots with
        | .ok row => .ok row
        | .error fault => .error ⟨fault, node.span?⟩
    | none =>
      match itemsOf node with
      | some items => placed node.span? (fields.treeByPosition name fields.size 0 items)
      | none => mistyped ("struct " ++ name) node
  | _, .via item pack _, node =>
    match item.ofTree node with
    | .ok x => .ok (pack x)
    | .error misfit => .error misfit

/-- Puts one entry of a table into the slot of its field.  What has no place takes that of the
value, or of its key. -/
def Fields.putTree : {ts : List Type} → Fields ts → Key → Node → Slots ts →
    Except Misfit (Slots ts)
  | _, .nil, _, _, () => .ok ()
  | _, .required field item rest, key, node, (slot, slots) =>
    if key.name = field then
      match fillOnce ⟨.duplicateField field, none⟩ item.ofTree node slot with
      | .ok slot => .ok (slot, slots)
      | .error misfit => .error (misfit.within (node.span?.or (some key.span)))
    else
      match rest.putTree key node slots with
      | .ok slots => .ok (slot, slots)
      | .error misfit => .error misfit
  | _, .defaulted field _ item rest, key, node, (slot, slots) =>
    if key.name = field then
      match fillOnce ⟨.duplicateField field, none⟩ item.ofTree node slot with
      | .ok slot => .ok (slot, slots)
      | .error misfit => .error (misfit.within (node.span?.or (some key.span)))
    else
      match rest.putTree key node slots with
      | .ok slots => .ok (slot, slots)
      | .error misfit => .error misfit
  | _, .optional field item rest, key, node, (slot, slots) =>
    if key.name = field then
      match fillOnce ⟨.duplicateField field, none⟩ (present item.ofTree) node slot with
      | .ok slot => .ok (slot, slots)
      | .error misfit => .error (misfit.within (node.span?.or (some key.span)))
    else
      match rest.putTree key node slots with
      | .ok slots => .ok (slot, slots)
      | .error misfit => .error misfit

/-- The fields of a record given by position; items behind the last field are ignored. -/
def Fields.treeByPosition : {ts : List Type} → Fields ts → String → Nat → Nat → List Node →
    Except Misfit (Row ts)
  | _, .nil, _, _, _, _ => .ok ()
  | _, .required _ item rest, record, size, index, nodes =>
    match nodes with
    | [] => .error ⟨.tooShort index record size, none⟩
    | node :: nodes =>
      match item.ofTree node with
      | .error misfit => .error misfit
      | .ok a =>
        match rest.treeByPosition record size (index + 1) nodes with
        | .ok row => .ok (a, row)
        | .error misfit => .error misfit
  | _, .defaulted _ value item rest, record, size, index, nodes =>
    match nodes with
    | [] =>
      match rest.treeByPosition record size (index + 1) [] with
      | .ok row => .ok (value, row)
      | .error misfit => .error misfit
    | node :: nodes =>
      match item.ofTree node with
      | .error misfit => .error misfit
      | .ok a =>
        match rest.treeByPosition record size (index + 1) nodes with
        | .ok row => .ok (a, row)
        | .error misfit => .error misfit
  | _, .optional _ item rest, record, size, index, nodes =>
    match nodes with
    | [] =>
      match rest.treeByPosition record size (index + 1) [] with
      | .ok row => .ok (none, row)
      | .error misfit => .error misfit
    | node :: nodes =>
      match item.ofTree node with
      | .error misfit => .error misfit
      | .ok a =>
        match rest.treeByPosition record size (index + 1) nodes with
        | .ok row => .ok (some a, row)
        | .error misfit => .error misfit

end

end ScopeCheck
