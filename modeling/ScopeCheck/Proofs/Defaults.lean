import ScopeCheck.Options
import ScopeCheck.Proofs.Fields

/-!
# Fields that are left out

A document gives a record some of its fields, by name or by position.  This module says which values
a record has then, and what that comes to for options: whoever reads a document as options gets the
defaults under the override that the same document is read as.

* `Json.given`: the values that a document gives the fields of a record, each under its name.
* `Field.Takes`, `Fields.Takes`: the values that fields take, from nothing but what is given under
  their own names.
* `Schema.decode_record_eq_ok_iff`: the records that a document is read as, by this relation.
* `Options.decode_eq_merged_defaults`: options against overrides.
-/

namespace ScopeCheck

variable {α β : Type} {ts : List Type}

/-! ## What a document gives -/

namespace Json

/-- The values that a document gives the fields of a record: the members of an object, or the items
of a list under the names of the fields in order. -/
def given (names : List String) : Json → List (String × Json)
  | obj members => members
  | arr items => names.zip items
  | _ => []

/-- Whether a document is one of the two forms of a record with some number of fields. -/
def MayBeRecord (size : Nat) : Json → Prop
  | obj _ => True
  | arr items => items.length ≤ size
  | _ => False

/-- The values given under one name. -/
def valuesOf (name : String) (members : List (String × Json)) : List Json :=
  (members.filter fun m => m.1 = name).map Prod.snd

theorem valuesOf_cons_self (name : String) (value : Json) (members : List (String × Json)) :
    valuesOf name ((name, value) :: members) = value :: valuesOf name members := by
  simp [valuesOf]

theorem valuesOf_cons_of_ne {name other : String} (h : other ≠ name) (value : Json)
    (members : List (String × Json)) :
    valuesOf name ((other, value) :: members) = valuesOf name members := by
  simp [valuesOf, h]

theorem valuesOf_eq_nil_iff {name : String} {members : List (String × Json)} :
    valuesOf name members = [] ↔ name ∉ members.map Prod.fst := by
  rw [valuesOf, List.map_eq_nil_iff, List.filter_eq_nil_iff, List.mem_map, not_exists]
  simp only [decide_eq_true_eq, not_and]

theorem mem_valuesOf_iff {name : String} {value : Json} {members : List (String × Json)} :
    value ∈ valuesOf name members ↔ (name, value) ∈ members := by
  simp [valuesOf]

/-- Members of another name do not count. -/
theorem valuesOf_filter_of_ne {name other : String} (h : name ≠ other)
    (members : List (String × Json)) :
    valuesOf name (members.filter fun m => m.1 ≠ other) = valuesOf name members := by
  rw [valuesOf, valuesOf, List.filter_filter]
  congr 1
  apply List.filter_congr
  intro m _
  by_cases hname : m.1 = name
  · simp [hname, h]
  · simp [hname]

end Json

open Json (valuesOf)

/-! ## What fields take -/

/-- The value that a field takes from those given under its name: one that is read from the only one
of them, or its own where there is none. -/
inductive Field.Takes (field : Field β) : List Json → β → Prop where
  | absent {x : β} (h : field.absent = some x) : Takes field [] x
  | given {j : Json} {x : β} (h : field.decode j = .ok x) : Takes field [j] x

/-- The values that the fields of a record take from what is given under their names. -/
def Fields.Takes : {ts : List Type} → Fields ts → List (String × Json) → Row ts → Prop
  | _, .nil, _, () => True
  | _, .required name item rest, members, (x, row) =>
    (Field.required name item).Takes (valuesOf name members) x ∧ rest.Takes members row
  | _, .defaulted name value item rest, members, (x, row) =>
    (Field.defaulted name value item).Takes (valuesOf name members) x ∧ rest.Takes members row
  | _, .optional name item rest, members, (x, row) =>
    (Field.optional name item).Takes (valuesOf name members) x ∧ rest.Takes members row

namespace Field

variable (field : Field β)

theorem takes_nil_iff (x : β) : field.Takes [] x ↔ field.absent = some x :=
  ⟨fun h => by cases h with | absent h => exact h, .absent⟩

theorem takes_singleton_iff (j : Json) (x : β) : field.Takes [j] x ↔ field.decode j = .ok x :=
  ⟨fun h => by cases h with | given h => exact h, .given⟩

theorem not_takes_of_two (j k : Json) (values : List Json) (x : β) :
    ¬ field.Takes (j :: k :: values) x := by
  intro h
  cases h

/-- Members of one name fill the slot of a field with the value that the field takes. -/
theorem filled_iff (members : List (String × Json)) (x : β) :
    (∃ slot, fillSlots (fun _ : String => fillOnce (.duplicateField field.name) field.decode)
        members none = .ok slot ∧ slot.or field.absent = some x) ↔
      field.Takes (members.map Prod.snd) x := by
  cases members with
  | nil =>
    rw [List.map_nil, takes_nil_iff]
    simp [fillSlots]
  | cons m members =>
    cases members with
    | nil =>
      rw [List.map_singleton, takes_singleton_iff]
      cases hread : field.decode m.2 with
      | error fault => simp [fillSlots, fillOnce, hread]
      | ok y => simp [fillSlots, fillOnce, hread]
    | cons m' members =>
      rw [List.map_cons, List.map_cons, iff_false_right (field.not_takes_of_two m.2 m'.2 _ x)]
      cases hread : field.decode m.2 with
      | error fault => simp [fillSlots, fillOnce, hread]
      | ok y => simp [fillSlots, fillOnce, hread]

end Field

namespace Fields

theorem takes_cons (field : Field β) (rest : Fields ts) (members : List (String × Json)) (x : β)
    (row : Row ts) :
    (field.cons rest).Takes members (x, row) ↔
      field.Takes (valuesOf field.name members) x ∧ rest.Takes members row := by
  cases field <;> exact Iff.rfl

/-- What is given under other names does not matter. -/
theorem takes_congr : {ts : List Type} → (fields : Fields ts) →
    {members others : List (String × Json)} →
    (∀ name ∈ fields.names, valuesOf name members = valuesOf name others) → (row : Row ts) →
    (fields.Takes members row ↔ fields.Takes others row)
  | _, .nil, _, _, _, () => Iff.rfl
  | _, .required name item rest, members, others, h, (x, row) => by
    obtain ⟨hname, hrest⟩ := List.forall_mem_cons.mp h
    rw [Takes, Takes, hname, rest.takes_congr hrest]
  | _, .defaulted name value item rest, members, others, h, (x, row) => by
    obtain ⟨hname, hrest⟩ := List.forall_mem_cons.mp h
    rw [Takes, Takes, hname, rest.takes_congr hrest]
  | _, .optional name item rest, members, others, h, (x, row) => by
    obtain ⟨hname, hrest⟩ := List.forall_mem_cons.mp h
    rw [Takes, Takes, hname, rest.takes_congr hrest]

/-! ## Reading by name -/

/-- The members of one name fill the slot of the first field, and the others those behind it. -/
theorem fillSlots_cons_eq_ok_iff (field : Field β) (rest : Fields ts)
    (members : List (String × Json)) {slot slot' : Option β} {slots slots' : Slots ts} :
    fillSlots (field.cons rest).put members (slot, slots) = .ok (slot', slots') ↔
      fillSlots (fun _ => fillOnce (.duplicateField field.name) field.decode)
          (members.filter fun m => m.1 = field.name) slot = .ok slot' ∧
        fillSlots rest.put (members.filter fun m => m.1 ≠ field.name) slots = .ok slots' := by
  induction members generalizing slot slots with
  | nil =>
    constructor
    · intro h
      cases h
      exact ⟨rfl, rfl⟩
    · rintro ⟨hslot, hslots⟩
      cases hslot
      cases hslots
      rfl
  | cons m members ih =>
    obtain ⟨name, j⟩ := m
    by_cases hname : name = field.name
    · simp only [List.filter_cons, hname, decide_true, if_true, ne_eq, not_true_eq_false,
        decide_false, Bool.false_eq_true, if_false, fillSlots, put_cons]
      cases fillOnce (Fault.duplicateField field.name) field.decode j slot with
      | error fault => simp
      | ok filled => exact ih
    · simp only [List.filter_cons, hname, decide_false, Bool.false_eq_true, if_false, ne_eq,
        not_false_eq_true, decide_true, if_true, fillSlots, put_cons]
      cases rest.put name j slots with
      | error fault => simp
      | ok filled => exact ih

theorem complete_cons_eq_ok_iff (field : Field β) (rest : Fields ts) (slot : Option β)
    (slots : Slots ts) (x : β) (row : Row ts) :
    (field.cons rest).complete (slot, slots) = .ok (x, row) ↔
      slot.or field.absent = some x ∧ rest.complete slots = .ok row := by
  rw [complete_cons]
  cases slot.or field.absent with
  | none => simp
  | some y =>
    cases rest.complete slots with
    | error fault => simp
    | ok others =>
      constructor
      · intro h
        cases h
        exact ⟨rfl, rfl⟩
      · rintro ⟨hx, hrow⟩
        cases hx
        cases hrow
        rfl

/-- One more field in front: what it takes is found under its name, and what the fields behind it
take is not. -/
theorem filled_cons_iff (field : Field β) {rest : Fields ts} (hname : field.name ∉ rest.names)
    (hrest : ∀ (members : List (String × Json)) (row : Row ts),
      (∃ slots, fillSlots rest.put members rest.noSlots = .ok slots ∧
        rest.complete slots = .ok row) ↔ rest.Takes members row)
    (members : List (String × Json)) (x : β) (row : Row ts) :
    (∃ slots, fillSlots (field.cons rest).put members (field.cons rest).noSlots = .ok slots ∧
        (field.cons rest).complete slots = .ok (x, row)) ↔
      (field.cons rest).Takes members (x, row) := by
  have hothers : rest.Takes (members.filter fun m => m.1 ≠ field.name) row ↔
      rest.Takes members row := by
    apply rest.takes_congr
    intro name hmem
    have hne : name ≠ field.name := by
      rintro rfl
      exact hname hmem
    exact Json.valuesOf_filter_of_ne hne members
  rw [takes_cons, noSlots_cons, ← hothers, ← hrest, valuesOf, ← field.filled_iff]
  constructor
  · rintro ⟨⟨slot, slots⟩, hfill, hcomplete⟩
    obtain ⟨hown, hfill⟩ := (fillSlots_cons_eq_ok_iff field rest members).mp hfill
    obtain ⟨hx, hcomplete⟩ := (complete_cons_eq_ok_iff field rest slot slots x row).mp hcomplete
    exact ⟨⟨slot, hown, hx⟩, slots, hfill, hcomplete⟩
  · rintro ⟨⟨slot, hown, hx⟩, slots, hfill, hcomplete⟩
    exact ⟨(slot, slots), (fillSlots_cons_eq_ok_iff field rest members).mpr ⟨hown, hfill⟩,
      (complete_cons_eq_ok_iff field rest slot slots x row).mpr ⟨hx, hcomplete⟩⟩

theorem filled_iff : {ts : List Type} → (fields : Fields ts) → fields.names.Nodup →
    (members : List (String × Json)) → (row : Row ts) →
    ((∃ slots, fillSlots fields.put members fields.noSlots = .ok slots ∧
      fields.complete slots = .ok row) ↔ fields.Takes members row)
  | _, .nil, _, members, () => by
    have hfill : fillSlots Fields.nil.put members () = .ok () := by
      induction members with
      | nil => rfl
      | cons m members ih => exact ih
    exact iff_of_true ⟨(), hfill, rfl⟩ trivial
  | _, .required name item rest, hnames, members, (x, row) => by
    obtain ⟨hname, hnames⟩ := List.nodup_cons.mp hnames
    exact filled_cons_iff (.required name item) hname (rest.filled_iff hnames) members x row
  | _, .defaulted name value item rest, hnames, members, (x, row) => by
    obtain ⟨hname, hnames⟩ := List.nodup_cons.mp hnames
    exact filled_cons_iff (.defaulted name value item) hname (rest.filled_iff hnames)
      members x row
  | _, .optional name item rest, hnames, members, (x, row) => by
    obtain ⟨hname, hnames⟩ := List.nodup_cons.mp hnames
    exact filled_cons_iff (.optional name item) hname (rest.filled_iff hnames) members x row

/-! ## Reading by position -/

theorem length_names : {ts : List Type} → (fields : Fields ts) →
    fields.names.length = fields.size
  | _, .nil => rfl
  | _, .required _ _ rest => congrArg (· + 1) rest.length_names
  | _, .defaulted _ _ _ rest => congrArg (· + 1) rest.length_names
  | _, .optional _ _ rest => congrArg (· + 1) rest.length_names

/-- One more field in front takes the first item. -/
theorem byPosition_cons_iff (field : Field β) {rest : Fields ts}
    (hname : field.name ∉ rest.names)
    (hrest : ∀ (record : String) (size index : Nat) (items left : List Json) (row : Row ts),
      rest.byPosition record size index items = .ok (row, left) ↔
        rest.Takes (rest.names.zip items) row ∧ left = items.drop rest.size)
    (record : String) (size index : Nat) (items left : List Json) (x : β) (row : Row ts) :
    (field.cons rest).byPosition record size index items = .ok ((x, row), left) ↔
      (field.cons rest).Takes ((field.name :: rest.names).zip items) (x, row) ∧
        left = items.drop (rest.size + 1) := by
  have hpair (y : β) (found : Row ts × List Json) :
      ((y, found.1), found.2) = ((x, row), left) ↔ y = x ∧ found = (row, left) := by
    obtain ⟨row', left'⟩ := found
    constructor
    · intro h
      cases h
      exact ⟨rfl, rfl⟩
    · rintro ⟨rfl, h⟩
      cases h
      rfl
  rw [byPosition_cons, takes_cons]
  cases items with
  | nil =>
    have hown : valuesOf field.name [] = [] := rfl
    have hbehind := hrest record size (index + 1) [] left row
    rw [List.zip_nil_right, List.drop_nil] at hbehind
    rw [List.zip_nil_right, List.drop_nil, hown, field.takes_nil_iff, and_assoc, ← hbehind]
    dsimp only
    cases field.absent with
    | none => simp
    | some y =>
      cases rest.byPosition record size (index + 1) [] with
      | error fault => simp
      | ok found =>
        rw [Option.some.injEq, Except.ok.injEq, Except.ok.injEq]
        exact hpair y found
  | cons j items =>
    have hown : valuesOf field.name (rest.names.zip items) = [] := by
      rw [Json.valuesOf_eq_nil_iff]
      intro hmem
      obtain ⟨m, hm, hfirst⟩ := List.mem_map.mp hmem
      exact hname (hfirst ▸ (List.of_mem_zip hm).1)
    have htakes : field.Takes (valuesOf field.name ((field.name, j) :: rest.names.zip items)) x ↔
        field.decode j = .ok x := by
      rw [Json.valuesOf_cons_self, hown, Field.takes_singleton_iff]
    have hothers : rest.Takes ((field.name, j) :: rest.names.zip items) row ↔
        rest.Takes (rest.names.zip items) row := by
      apply rest.takes_congr
      intro name hmem
      apply Json.valuesOf_cons_of_ne
      rintro rfl
      exact hname hmem
    rw [List.zip_cons_cons, List.drop_succ_cons, htakes, hothers, and_assoc,
      ← hrest record size (index + 1) items left row]
    dsimp only
    cases field.decode j with
    | error fault => simp
    | ok y =>
      cases rest.byPosition record size (index + 1) items with
      | error fault => simp
      | ok found =>
        rw [Except.ok.injEq, Except.ok.injEq, Except.ok.injEq]
        exact hpair y found

theorem byPosition_eq_ok_iff : {ts : List Type} → (fields : Fields ts) → fields.names.Nodup →
    (record : String) → (size index : Nat) → (items left : List Json) → (row : Row ts) →
    (fields.byPosition record size index items = .ok (row, left) ↔
      fields.Takes (fields.names.zip items) row ∧ left = items.drop fields.size)
  | _, .nil, _, _, _, _, items, left, () => by
    show Except.ok ((), items) = Except.ok ((), left) ↔ True ∧ left = items
    simp [eq_comm]
  | _, .required name item rest, hnames, record, size, index, items, left, (x, row) => by
    obtain ⟨hname, hnames⟩ := List.nodup_cons.mp hnames
    exact byPosition_cons_iff (.required name item) hname (rest.byPosition_eq_ok_iff hnames)
      record size index items left x row
  | _, .defaulted name value item rest, hnames, record, size, index, items, left, (x, row) => by
    obtain ⟨hname, hnames⟩ := List.nodup_cons.mp hnames
    exact byPosition_cons_iff (.defaulted name value item) hname
      (rest.byPosition_eq_ok_iff hnames) record size index items left x row
  | _, .optional name item rest, hnames, record, size, index, items, left, (x, row) => by
    obtain ⟨hname, hnames⟩ := List.nodup_cons.mp hnames
    exact byPosition_cons_iff (.optional name item) hname (rest.byPosition_eq_ok_iff hnames)
      record size index items left x row

end Fields

/-! ## Records -/

/-- A document is read as a record exactly when it has one of the two forms of a record and every
field takes its value from what is given under its name. -/
theorem Schema.decode_record_eq_ok_iff (name : String) {fields : Fields ts}
    (hnames : fields.names.Nodup) (j : Json) (row : Row ts) :
    (Schema.record name fields).decode j = .ok row ↔
      j.MayBeRecord fields.size ∧ fields.Takes (j.given fields.names) row := by
  cases j with
  | obj members =>
    have hobject := fields.filled_iff hnames members row
    rw [Schema.decode, Json.given, ← hobject, Json.MayBeRecord, true_and]
    cases fillSlots fields.put members fields.noSlots with
    | error fault => simp
    | ok slots => simp
  | arr items =>
    have hlist := fields.byPosition_eq_ok_iff hnames name fields.size 0 items [] row
    have hshort : [] = items.drop fields.size ↔ items.length ≤ fields.size := by
      rw [eq_comm, List.drop_eq_nil_iff]
    rw [hshort, and_comm] at hlist
    rw [Schema.decode, Json.given, Json.MayBeRecord, ← hlist]
    cases fields.byPosition name fields.size 0 items with
    | error fault => simp
    | ok found =>
      obtain ⟨found, left⟩ := found
      cases left with
      | nil => simp
      | cons j left => simp
  | null => simp [Schema.decode, Json.MayBeRecord]
  | bool b => simp [Schema.decode, Json.MayBeRecord]
  | integer n => simp [Schema.decode, Json.MayBeRecord]
  | float x => simp [Schema.decode, Json.MayBeRecord]
  | str s => simp [Schema.decode, Json.MayBeRecord]

theorem Schema.decode_via_eq_ok_iff (item : Schema α) (pack : α → β) (unpack : β → α) (j : Json)
    (x : β) :
    (Schema.via item pack unpack).decode j = .ok x ↔ ∃ a, item.decode j = .ok a ∧ pack a = x := by
  rw [Schema.decode]
  cases item.decode j with
  | error fault => simp
  | ok a => simp

/-- The same for a type whose values are written as records. -/
theorem Schema.decode_via_record_eq_ok_iff (name : String) {fields : Fields ts}
    (hnames : fields.names.Nodup) (pack : Row ts → α) (unpack : α → Row ts) (j : Json) (x : α) :
    (Schema.via (.record name fields) pack unpack).decode j = .ok x ↔
      ∃ row, j.MayBeRecord fields.size ∧ fields.Takes (j.given fields.names) row ∧
        pack row = x := by
  rw [decode_via_eq_ok_iff]
  simp only [decode_record_eq_ok_iff name hnames, and_assoc]

/-! ## Defaults and unset fields -/

theorem orNull_eq_ok_iff {ε : Type} (read : Json → Except ε α) {j : Json} (hnull : j ≠ .null)
    (y : Option α) : orNull read j = .ok y ↔ ∃ x, read j = .ok x ∧ y = some x := by
  unfold orNull
  split
  · contradiction
  · cases read j with
    | error fault => simp
    | ok x => simp [eq_comm]

/-- A field that may be unset against the same field with a default, where no null is given: they
take the same values, and what is left out is unset in the one and the default in the other. -/
theorem Field.takes_optional_iff {name : String} {item : Schema α} {values : List Json}
    (hnull : .null ∉ values) (value : α) (y : Option α) :
    (Field.optional name item).Takes values y ↔
      (Field.defaulted name value item).Takes values (y.getD value) ∧ (y = none ↔ values = []) := by
  constructor
  · intro h
    cases h with
    | absent hy =>
      cases hy
      exact ⟨.absent rfl, by simp⟩
    | @given j _ hread =>
      have hj : j ≠ .null := fun hj => hnull (hj ▸ List.mem_cons_self)
      obtain ⟨x, hitem, rfl⟩ := (orNull_eq_ok_iff item.decode hj y).mp hread
      exact ⟨.given hitem, by simp⟩
  · rintro ⟨h, hy⟩
    generalize hx : y.getD value = x at h
    cases h with
    | absent =>
      rw [hy.mpr rfl]
      exact .absent rfl
    | @given j _ hread =>
      have hj : j ≠ .null := fun hj => hnull (hj ▸ List.mem_cons_self)
      refine .given ((orNull_eq_ok_iff item.decode hj y).mpr ⟨x, hread, ?_⟩)
      cases y with
      | none => exact absurd (hy.mp rfl) (List.cons_ne_nil j [])
      | some y => exact congrArg some hx

/-- What has a value with a default has one that may be unset, too. -/
theorem Field.exists_takes_optional {name : String} {item : Schema α} {values : List Json}
    (hnull : .null ∉ values) {value x : α}
    (h : (Field.defaulted name value item).Takes values x) :
    ∃ y, (Field.optional name item).Takes values y := by
  by_cases hvalues : values = []
  · rw [hvalues]
    exact ⟨none, .absent rfl⟩
  · exact ⟨some x, (takes_optional_iff hnull value (some x)).mpr ⟨h, by simp [hvalues]⟩⟩

/-! ## Options -/

/-- The names of the switches. -/
def Options.names : List String :=
  ["log_all_passed_tokens", "terminate_host_on_failure", "grammar_is_inline_document"]

/-- The switches of an override under their names. -/
def Override.named (override : Override) : List (String × Option Bool) :=
  [("log_all_passed_tokens", override.logAllPassedTokens),
    ("terminate_host_on_failure", override.terminateHostOnFailure),
    ("grammar_is_inline_document", override.grammarIsInlineDocument)]

/-- The values that a document gives a switch. -/
def Options.valuesIn (j : Json) (name : String) : List Json :=
  valuesOf name (j.given Options.names)

theorem Options.decode_eq_ok_iff (j : Json) (options : Options) :
    Options.schema.decode j = .ok options ↔
      j.MayBeRecord 3 ∧
        (Field.defaulted "log_all_passed_tokens" false .flag).Takes
          (valuesIn j "log_all_passed_tokens") options.logAllPassedTokens ∧
        (Field.defaulted "terminate_host_on_failure" true .flag).Takes
          (valuesIn j "terminate_host_on_failure") options.terminateHostOnFailure ∧
        (Field.defaulted "grammar_is_inline_document" false .flag).Takes
          (valuesIn j "grammar_is_inline_document") options.grammarIsInlineDocument := by
  apply (Schema.decode_via_record_eq_ok_iff _ (by decide) _ _ j options).trans
  constructor
  · rintro ⟨row, hform, ⟨hverbose, hterminate, hinline, -⟩, rfl⟩
    exact ⟨hform, hverbose, hterminate, hinline⟩
  · rintro ⟨hform, hverbose, hterminate, hinline⟩
    exact ⟨(_, _, _, ()), hform, ⟨hverbose, hterminate, hinline, trivial⟩, rfl⟩

theorem Override.decode_eq_ok_iff (j : Json) (override : Override) :
    Override.schema.decode j = .ok override ↔
      j.MayBeRecord 3 ∧
        (Field.optional "log_all_passed_tokens" .flag).Takes
          (Options.valuesIn j "log_all_passed_tokens") override.logAllPassedTokens ∧
        (Field.optional "terminate_host_on_failure" .flag).Takes
          (Options.valuesIn j "terminate_host_on_failure") override.terminateHostOnFailure ∧
        (Field.optional "grammar_is_inline_document" .flag).Takes
          (Options.valuesIn j "grammar_is_inline_document") override.grammarIsInlineDocument := by
  apply (Schema.decode_via_record_eq_ok_iff _ (by decide) _ _ j override).trans
  constructor
  · rintro ⟨row, hform, ⟨hverbose, hterminate, hinline, -⟩, rfl⟩
    exact ⟨hform, hverbose, hterminate, hinline⟩
  · rintro ⟨hform, hverbose, hterminate, hinline⟩
    exact ⟨(_, _, _, ()), hform, ⟨hverbose, hterminate, hinline, trivial⟩, rfl⟩

/-- Options and overrides are read from the same documents, those that give null for a switch aside,
and the options are the defaults under the override.  So a switch that is left out has its default
in the one and is unset in the other, and no other switch is unset. -/
theorem Options.decode_eq_merged_defaults (j : Json)
    (hnull : ∀ name ∈ names, (name, .null) ∉ j.given names) :
    ((∃ options, Options.schema.decode j = .ok options) ↔
        ∃ override, Override.schema.decode j = .ok override) ∧
      ∀ override, Override.schema.decode j = .ok override →
        Options.schema.decode j = .ok (({} : Options).merged override) ∧
          ∀ switch ∈ override.named,
            (switch.2 = none ↔ switch.1 ∉ (j.given names).map Prod.fst) := by
  have hvalues : ∀ name ∈ names, .null ∉ valuesIn j name := fun name hname hmem =>
    hnull name hname (Json.mem_valuesOf_iff.mp hmem)
  have hverbose := hvalues "log_all_passed_tokens" (by decide)
  have hterminate := hvalues "terminate_host_on_failure" (by decide)
  have hinline := hvalues "grammar_is_inline_document" (by decide)
  have hmerged : ∀ override, Override.schema.decode j = .ok override →
      Options.schema.decode j = .ok (({} : Options).merged override) ∧
        ∀ switch ∈ override.named,
          (switch.2 = none ↔ switch.1 ∉ (j.given names).map Prod.fst) := by
    intro override h
    obtain ⟨hform, h₁, h₂, h₃⟩ := (Override.decode_eq_ok_iff j override).mp h
    obtain ⟨htakes₁, hunset₁⟩ := (Field.takes_optional_iff hverbose false _).mp h₁
    obtain ⟨htakes₂, hunset₂⟩ := (Field.takes_optional_iff hterminate true _).mp h₂
    obtain ⟨htakes₃, hunset₃⟩ := (Field.takes_optional_iff hinline false _).mp h₃
    refine ⟨(Options.decode_eq_ok_iff j _).mpr ⟨hform, htakes₁, htakes₂, htakes₃⟩, ?_⟩
    have hunset : ∀ switch ∈ override.named,
        (switch.2 = none ↔ valuesIn j switch.1 = []) := by
      simp [Override.named, hunset₁, hunset₂, hunset₃]
    intro switch hswitch
    exact (hunset switch hswitch).trans Json.valuesOf_eq_nil_iff
  refine ⟨⟨?_, fun ⟨override, h⟩ => ⟨_, (hmerged override h).1⟩⟩, hmerged⟩
  rintro ⟨options, h⟩
  obtain ⟨hform, h₁, h₂, h₃⟩ := (Options.decode_eq_ok_iff j options).mp h
  obtain ⟨verbose, h₁⟩ := Field.exists_takes_optional hverbose h₁
  obtain ⟨terminate, h₂⟩ := Field.exists_takes_optional hterminate h₂
  obtain ⟨inline, h₃⟩ := Field.exists_takes_optional hinline h₃
  exact ⟨⟨verbose, terminate, inline⟩, (Override.decode_eq_ok_iff j _).mpr ⟨hform, h₁, h₂, h₃⟩⟩

/-- An object with a name that no switch has and the switches in another order, one of them left
out, and a list that is short of two. -/
theorem Options.decode_eq_merged_defaults_left_out :
    let object : Json :=
      .obj [("grammar_is_inline_document", .bool true), ("colour", .null),
        ("log_all_passed_tokens", .bool true)]
    let list : Json := .arr [.bool true]
    (∀ name ∈ names, (name, .null) ∉ object.given names) ∧
      (∀ name ∈ names, (name, .null) ∉ list.given names) ∧
      Override.schema.decode object = .ok ⟨some true, none, some true⟩ ∧
      Options.schema.decode object = .ok ⟨true, true, true⟩ ∧
      Override.schema.decode list = .ok ⟨some true, none, none⟩ ∧
      Options.schema.decode list = .ok ⟨true, true, false⟩ := by
  intro object list
  have hobject : ∀ name ∈ names, (name, .null) ∉ object.given names := by
    simp [object, names, Json.given]
  have hlist : ∀ name ∈ names, (name, .null) ∉ list.given names := by
    simp [list, names, Json.given]
  have hread : Override.schema.decode object = .ok ⟨some true, none, some true⟩ := by rfl
  have hshort : Override.schema.decode list = .ok ⟨some true, none, none⟩ := by rfl
  obtain ⟨-, hmerged⟩ := decode_eq_merged_defaults object hobject
  obtain ⟨-, hfilled⟩ := decode_eq_merged_defaults list hlist
  exact ⟨hobject, hlist, hread, (hmerged _ hread).1, hshort, (hfilled _ hshort).1⟩

end ScopeCheck
