import ScopeCheck.Proofs.Fields

/-!
# Decoding what was encoded

A value that keeps to the ranges of its counts is written as a JSON value that is read as that value
and no other, whatever order the members of its objects are kept in; and nothing else is ever read.

* `Schema.Decodes`, `Field.Decodes`, `Fields.Decodes`: this law for a schema, a field and the fields
  of a record.
* `Schema.decodes`: every lawful schema keeps it.
-/

namespace ScopeCheck

open ScopeCheck.Json (Reordered ReorderedMembers Readable)

variable {α β : Type} {ts : List Type}

/-- The values of a schema come back from the JSON values they are written as. -/
structure Schema.Decodes (schema : Schema α) : Prop where
  ne_null : ∀ x, schema.encode x ≠ .null
  readable : ∀ {x}, schema.Fits x → Readable schema.nesting (schema.encode x)
  decode : ∀ {x}, schema.Fits x → ∀ {j}, Reordered (schema.encode x) j → schema.decode j = .ok x
  fits : ∀ {j x}, schema.decode j = .ok x → schema.Fits x

/-- The values of a field come back from what it is written as, or from its absence. -/
structure Field.Decodes (field : Field β) : Prop where
  readable : ∀ {x j}, field.Fits x → field.encode x = some j → Readable field.nesting j
  decode : ∀ {x j}, field.Fits x → field.encode x = some j →
    ∀ {k}, Reordered j k → field.decode k = .ok x
  fits : ∀ {j x}, field.decode j = .ok x → field.Fits x
  absent : ∀ {x}, field.encode x = none → field.absent = some x
  absent_fits : ∀ {x}, field.absent = some x → field.Fits x

/-- Members one after the other take the slots of a record from one state to another. -/
inductive Fills {σ : Type} (step : String × Json → σ → σ → Prop) :
    List (String × Json) → σ → σ → Prop
  | nil {slots : σ} : Fills step [] slots slots
  | cons {m : String × Json} {members : List (String × Json)} {slots next last : σ}
      (first : step m slots next) (others : Fills step members next last) :
      Fills step (m :: members) slots last

/-- The values of fields come back from the members they are written as. -/
structure Fields.Decodes (fields : Fields ts) : Prop where
  readable : ∀ {row}, fields.Fits row → ∀ m ∈ fields.encode row, Readable fields.nesting m.2
  decode : ∀ {row}, fields.Fits row → ∀ {kept}, ReorderedMembers (fields.encode row) kept →
    ∃ slots, Fills (fun m slots slots' => fields.put m.1 m.2 slots = .ok slots') kept
        fields.noSlots slots ∧
      fields.complete slots = .ok row
  put_fits : ∀ {name j slots slots'}, fields.SlotsFit slots →
    fields.put name j slots = .ok slots' → fields.SlotsFit slots'
  complete_fits : ∀ {slots row}, fields.SlotsFit slots → fields.complete slots = .ok row →
    fields.Fits row
  byPosition_fits : ∀ {record size index xs row left},
    fields.byPosition record size index xs = .ok (row, left) → fields.Fits row

/-! ## Lists and counts -/

theorem readAll_eq_ok_iff {ε : Type} {read : α → Except ε β} {xs : List α} {ys : List β} :
    readAll read xs = .ok ys ↔ List.Forall₂ (fun x y => read x = .ok y) xs ys := by
  induction xs generalizing ys with
  | nil =>
    rw [List.forall₂_nil_left_iff]
    exact ⟨fun h => (Except.ok.inj h).symm, fun h => h ▸ rfl⟩
  | cons x xs ih =>
    rw [List.forall₂_cons_left_iff]
    constructor
    · intro h
      unfold readAll at h
      cases hx : read x with
      | error e => simp [hx] at h
      | ok y =>
        cases hxs : readAll read xs with
        | error e => simp [hx, hxs] at h
        | ok ys' =>
          simp only [hx, hxs, Except.ok.injEq] at h
          exact ⟨y, ys', rfl, ih.mp hxs, h.symm⟩
    · rintro ⟨y, ys', hx, hxs, rfl⟩
      simp only [readAll, hx, ih.mpr hxs]

theorem Range.ofInt_natCast {range : Range} {n : Nat} (h : n < range.limit) :
    range.ofInt n = .ok n := by
  have hrange : (0 : Int) ≤ n ∧ (n : Int) < range.limit := by omega
  rw [Range.ofInt, if_pos hrange]
  rfl

theorem Range.lt_of_ofInt {range : Range} {i : Int} {n : Nat} (h : range.ofInt i = .ok n) :
    n < range.limit := by
  unfold Range.ofInt at h
  split at h
  · cases h
    omega
  · cases h

/-! ## Schemas, one constructor after the other -/

namespace Schema.Decodes

theorem text : Schema.text.Decodes where
  ne_null _ h := nomatch h
  readable _ := .str _
  decode _ _ h := by
    cases h
    rfl
  fits _ := trivial

theorem flag : Schema.flag.Decodes where
  ne_null _ h := nomatch h
  readable _ := .bool _
  decode _ _ h := by
    cases h
    rfl
  fits _ := trivial

theorem count {range : Range} (hlimit : range.limit ≤ 2 ^ 64) : (Schema.count range).Decodes where
  ne_null _ h := nomatch h
  readable {n} hn := by
    have hn : n < range.limit := hn
    exact .integer (Json.holds64_natCast (by omega))
  decode {n} hn j h := by
    cases h
    exact Range.ofInt_natCast hn
  fits {j n} h := by
    unfold Schema.decode at h
    split at h
    · exact Range.lt_of_ofInt h
    · cases h

theorem list {item : Schema α} (hitem : item.Decodes) : (Schema.list item).Decodes where
  ne_null _ h := nomatch h
  readable {xs} hxs := by
    have hxs : ∀ x ∈ xs, item.Fits x := hxs
    refine .arr fun j hj => ?_
    obtain ⟨x, hx, rfl⟩ := List.mem_map.mp hj
    exact hitem.readable (hxs x hx)
  decode {xs} hxs j h := by
    have hxs : ∀ x ∈ xs, item.Fits x := hxs
    obtain ⟨kept, rfl, hkept⟩ := Reordered.of_arr h
    have hfits : List.Forall₂ (fun x k => item.Fits x ∧ Reordered (item.encode x) k) xs kept :=
      (List.forall₂_and_left xs kept).mpr ⟨hxs, List.forall₂_map_left_iff.mp hkept⟩
    have hread : List.Forall₂ (fun k x => item.decode k = .ok x) kept xs :=
      (hfits.imp fun _ _ h => hitem.decode h.1 h.2).flip
    exact readAll_eq_ok_iff.mpr hread
  fits {j xs} h := by
    unfold Schema.decode at h
    split at h
    · rename_i items
      have hread := (readAll_eq_ok_iff.mp h).flip
      have hfits := hread.imp fun x _ hx => (⟨hitem.fits hx, trivial⟩ : item.Fits x ∧ True)
      exact ((List.forall₂_and_left xs items).mp hfits).1
    · cases h

theorem either {name : String} {left : Schema α} {right : Schema β} (hleft : left.Decodes)
    (hright : right.Decodes)
    (hrefused : ∀ b j, Reordered (right.encode b) j → ∃ fault, left.decode j = .error fault) :
    (Schema.either name left right).Decodes where
  ne_null x := by
    cases x with
    | inl a => exact hleft.ne_null a
    | inr b => exact hright.ne_null b
  readable {x} hx := by
    cases x with
    | inl a => exact (hleft.readable hx).mono (Nat.le_max_left _ _)
    | inr b => exact (hright.readable hx).mono (Nat.le_max_right _ _)
  decode {x} hx j h := by
    cases x with
    | inl a =>
      have hdecode := hleft.decode hx h
      simp only [Schema.decode, hdecode]
    | inr b =>
      have hdecode := hright.decode hx h
      obtain ⟨fault, herror⟩ := hrefused b j h
      simp only [Schema.decode, herror, hdecode]
  fits {j x} h := by
    unfold Schema.decode at h
    cases hl : left.decode j with
    | ok a =>
      simp only [hl, Except.ok.injEq] at h
      subst h
      exact hleft.fits hl
    | error fault =>
      cases hr : right.decode j with
      | ok b =>
        simp only [hl, hr, Except.ok.injEq] at h
        subst h
        exact hright.fits hr
      | error fault => simp [hl, hr] at h

theorem via {item : Schema α} {pack : α → β} {unpack : β → α} (hitem : item.Decodes)
    (hpack : ∀ x, pack (unpack x) = x) (hunpack : ∀ a, unpack (pack a) = a) :
    (Schema.via item pack unpack).Decodes where
  ne_null x := hitem.ne_null (unpack x)
  readable hx := hitem.readable hx
  decode {x} hx j h := by
    have hdecode := hitem.decode hx h
    simp only [Schema.decode, hdecode, hpack]
  fits {j x} h := by
    unfold Schema.decode at h
    cases ha : item.decode j with
    | error fault => simp [ha] at h
    | ok a =>
      simp only [ha, Except.ok.injEq] at h
      subst h
      have hfits := hitem.fits ha
      rw [← hunpack a] at hfits
      exact hfits

end Schema.Decodes

/-! ## Fields -/

namespace Field.Decodes

theorem required (name : String) {item : Schema α} (hitem : item.Decodes) :
    (Field.required name item).Decodes where
  readable hx h := by
    cases h
    exact hitem.readable hx
  decode hx h := by
    cases h
    exact hitem.decode hx
  fits := hitem.fits
  absent h := nomatch h
  absent_fits h := nomatch h

theorem defaulted (name : String) {value : α} {item : Schema α} (hvalue : item.Fits value)
    (hitem : item.Decodes) : (Field.defaulted name value item).Decodes where
  readable hx h := by
    cases h
    exact hitem.readable hx
  decode hx h := by
    cases h
    exact hitem.decode hx
  fits := hitem.fits
  absent h := nomatch h
  absent_fits h := by
    cases h
    exact hvalue

/-- A value that is set is never written as null, which is how one that is unset may be given. -/
theorem optional (name : String) {item : Schema α} (hitem : item.Decodes) :
    (Field.optional name item).Decodes where
  readable {x j} hx h := by
    obtain ⟨a, rfl, rfl⟩ := Option.map_eq_some_iff.mp h
    exact hitem.readable (hx a rfl)
  decode {x j} hx h k hk := by
    obtain ⟨a, rfl, rfl⟩ := Option.map_eq_some_iff.mp h
    have hdecode := hitem.decode (hx a rfl) hk
    show orNull item.decode k = .ok (some a)
    unfold orNull
    split
    · exact absurd (Reordered.eq_null hk) (hitem.ne_null a)
    · rw [hdecode]
  fits {j x} h := by
    have h : orNull item.decode j = .ok x := h
    unfold orNull at h
    split at h
    · cases h
      exact fun a ha => nomatch ha
    · cases hj : item.decode j with
      | error fault => simp [hj] at h
      | ok a =>
        simp only [hj, Except.ok.injEq] at h
        subst h
        intro b hb
        cases hb
        exact hitem.fits hj
  absent {x} h := by
    have hx : x = none := Option.map_eq_none_iff.mp h
    rw [hx]
    rfl
  absent_fits {x} h := by
    cases h
    exact fun a ha => nomatch ha

end Field.Decodes

/-! ## The members of a record -/

theorem fillSlots_of_fills {ε σ : Type} {put : String → Json → σ → Except ε σ}
    {members : List (String × Json)} {slots last : σ}
    (h : Fills (fun m slots slots' => put m.1 m.2 slots = .ok slots') members slots last) :
    fillSlots put members slots = .ok last := by
  induction h with
  | nil => rfl
  | @cons m _ _ _ _ first _ ih =>
    obtain ⟨name, j⟩ := m
    have hput : put name j _ = .ok _ := first
    rw [fillSlots, hput]
    exact ih

/-- The members of one name fill the slot of one field, and the others those of the other fields,
each without a look at the other. -/
theorem Fills.split {σ τ : Type} {step : String × Json → σ × τ → σ × τ → Prop}
    {first : String × Json → σ → σ → Prop} {others : String × Json → τ → τ → Prop} (name : String)
    (hfirst : ∀ m a a' b, m.1 = name → first m a a' → step m (a, b) (a', b))
    (hothers : ∀ m a b b', m.1 ≠ name → others m b b' → step m (a, b) (a, b'))
    {members : List (String × Json)} {a a' : σ} {b b' : τ}
    (ha : Fills first (members.filter fun m => decide (m.1 = name)) a a')
    (hb : Fills others (members.filter fun m => !decide (m.1 = name)) b b') :
    Fills step members (a, b) (a', b') := by
  induction members generalizing a b with
  | nil =>
    cases ha
    cases hb
    exact .nil
  | cons m members ih =>
    by_cases hname : m.1 = name
    · simp only [List.filter_cons, hname, decide_true, if_true, Bool.not_true, Bool.false_eq_true,
        if_false] at ha hb
      cases ha with
      | cons hm ha => exact .cons (hfirst m _ _ _ hname hm) (ih ha hb)
    · simp only [List.filter_cons, hname, decide_false, if_true, Bool.not_false,
        Bool.false_eq_true, if_false] at ha hb
      cases hb with
      | cons hm hb => exact .cons (hothers m _ _ _ hname hm) (ih ha hb)

/-- Of the members of a record, that of the first field is found under its name, if there is one,
and the others are those of the other fields. -/
theorem Fields.of_reordered_encode_cons {field : Field β} {rest : Fields ts}
    (hname : field.name ∉ rest.names) {x : β} {row : Row ts} {kept : List (String × Json)}
    (h : ReorderedMembers ((field.cons rest).encode (x, row)) kept) :
    ReorderedMembers (rest.encode row) (kept.filter fun m => !decide (m.1 = field.name)) ∧
      (∀ j, field.encode x = some j → ∃ k, Reordered j k ∧
        kept.filter (fun m => decide (m.1 = field.name)) = [(field.name, k)]) ∧
      (field.encode x = none → kept.filter (fun m => decide (m.1 = field.name)) = []) := by
  have hnames : ∀ m ∈ rest.encode row, m.1 ≠ field.name := by
    intro m hm heq
    exact hname (heq ▸ (rest.names_encode row).subset (List.mem_map_of_mem hm))
  have hkeep : (rest.encode row).filter (fun m => !decide (m.1 = field.name)) = rest.encode row :=
    List.filter_eq_self.mpr fun m hm => by simp [hnames m hm]
  have hdrop : (rest.encode row).filter (fun m => decide (m.1 = field.name)) = [] :=
    List.filter_eq_nil_iff.mpr fun m hm => by simp [hnames m hm]
  have hfirst := h.filter fun name => decide (name = field.name)
  have hothers := h.filter fun name => !decide (name = field.name)
  rw [Fields.encode_cons] at hfirst hothers
  cases hj : field.encode x with
  | some j =>
    simp only [hj, List.filter_cons, decide_true, if_true, Bool.not_true, Bool.false_eq_true,
      if_false, hdrop, hkeep] at hfirst hothers
    obtain ⟨k, honly, hk⟩ := hfirst.of_singleton
    refine ⟨hothers, ?_, fun h => nomatch h⟩
    intro j' hj'
    cases hj'
    exact ⟨k, hk, honly⟩
  | none =>
    simp only [hj, hdrop, hkeep] at hfirst hothers
    exact ⟨hothers, fun j hj => (nomatch hj), fun _ => hfirst.of_nil⟩

namespace Fields.Decodes

theorem nil : Fields.nil.Decodes where
  readable _ _ hm := nomatch hm
  decode {row} _ kept hkept := by
    rw [ReorderedMembers.of_nil hkept]
    exact ⟨(), .nil, rfl⟩
  put_fits _ _ := trivial
  complete_fits _ _ := trivial
  byPosition_fits _ := trivial

/-- A record with one more field in front. -/
theorem cons {field : Field β} {rest : Fields ts} (hfield : field.Decodes)
    (hname : field.name ∉ rest.names) (hrest : rest.Decodes) : (field.cons rest).Decodes where
  readable {row} hrow m hm := by
    obtain ⟨x, row⟩ := row
    obtain ⟨hx, hrow⟩ := (Fields.fits_cons field rest x row).mp hrow
    rw [Fields.encode_cons] at hm
    rw [Fields.nesting_cons]
    have hothers (hm : m ∈ rest.encode row) :
        Readable (max field.nesting rest.nesting) m.2 :=
      (hrest.readable hrow m hm).mono (Nat.le_max_right _ _)
    split at hm
    · rename_i j hj
      rcases List.mem_cons.mp hm with rfl | hm
      · exact (hfield.readable hx hj).mono (Nat.le_max_left _ _)
      · exact hothers hm
    · exact hothers hm
  decode {row} hrow kept hkept := by
    obtain ⟨x, row⟩ := row
    obtain ⟨hx, hrow⟩ := (Fields.fits_cons field rest x row).mp hrow
    -- What is kept under the name of this field fills its slot, and all else the slots behind it.
    obtain ⟨hothers, hwritten, habsent⟩ := Fields.of_reordered_encode_cons hname hkept
    obtain ⟨slots, hfills, hcomplete⟩ := hrest.decode hrow hothers
    have hsplit {slot : Option β} (hslot : Fills
        (fun m slot slot' =>
          fillOnce (.duplicateField field.name) field.decode m.2 slot = .ok slot')
        (kept.filter fun m => decide (m.1 = field.name)) none slot) :
        Fills (fun m slots slots' => (field.cons rest).put m.1 m.2 slots = .ok slots') kept
          (none, rest.noSlots) (slot, slots) := by
      refine Fills.split field.name ?_ ?_ hslot hfills
      · intro m slot slot' slots hm hfill
        simp only [Fields.put_cons, hm, if_true, hfill]
      · intro m slot slots slots' hm hput
        simp only [Fields.put_cons, hm, if_false, hput]
    rw [Fields.noSlots_cons]
    cases hj : field.encode x with
    | some j =>
      obtain ⟨k, hk, honly⟩ := hwritten j hj
      refine ⟨(some x, slots), hsplit ?_, ?_⟩
      · rw [honly]
        refine .cons ?_ .nil
        simp only [fillOnce, hfield.decode hx hj hk]
      · simp only [Fields.complete_cons, Option.some_or, hcomplete]
    | none =>
      refine ⟨(none, slots), hsplit ?_, ?_⟩
      · rw [habsent hj]
        exact .nil
      · simp only [Fields.complete_cons, Option.none_or, hfield.absent hj, hcomplete]
  put_fits {name j slots slots'} hslots h := by
    obtain ⟨slot, slots⟩ := slots
    obtain ⟨hslot, hothers⟩ := (Fields.slotsFit_cons field rest slot slots).mp hslots
    rw [Fields.put_cons] at h
    split at h
    · cases slot with
      | some x => simp [fillOnce] at h
      | none =>
        cases hj : field.decode j with
        | error fault => simp [fillOnce, hj] at h
        | ok x =>
          simp only [fillOnce, hj] at h
          cases h
          refine (Fields.slotsFit_cons field rest _ _).mpr ⟨?_, hothers⟩
          intro y hy
          cases hy
          exact hfield.fits hj
    · cases hput : rest.put name j slots with
      | error fault => simp [hput] at h
      | ok put =>
        simp only [hput] at h
        cases h
        exact (Fields.slotsFit_cons field rest _ _).mpr ⟨hslot, hrest.put_fits hothers hput⟩
  complete_fits {slots row} hslots h := by
    obtain ⟨slot, slots⟩ := slots
    obtain ⟨x, row⟩ := row
    obtain ⟨hslot, hslots⟩ := (Fields.slotsFit_cons field rest slot slots).mp hslots
    rw [Fields.complete_cons] at h
    cases hvalue : slot.or field.absent with
    | none => simp [hvalue] at h
    | some y =>
      cases hcomplete : rest.complete slots with
      | error fault => simp [hvalue, hcomplete] at h
      | ok others =>
        simp only [hvalue, hcomplete] at h
        cases h
        refine (Fields.fits_cons field rest _ _).mpr ⟨?_, hrest.complete_fits hslots hcomplete⟩
        rcases Option.or_eq_some_iff.mp hvalue with hvalue | ⟨-, hvalue⟩
        · exact hslot _ hvalue
        · exact hfield.absent_fits hvalue
  byPosition_fits {record size index xs row left} h := by
    obtain ⟨x, row⟩ := row
    rw [Fields.byPosition_cons] at h
    cases xs with
    | nil =>
      cases hvalue : field.absent with
      | none => simp [hvalue] at h
      | some y =>
        cases hothers : rest.byPosition record size (index + 1) [] with
        | error fault => simp [hvalue, hothers] at h
        | ok others =>
          simp only [hvalue, hothers, Except.ok.injEq] at h
          cases h
          exact (Fields.fits_cons field rest _ _).mpr
            ⟨hfield.absent_fits hvalue, hrest.byPosition_fits hothers⟩
    | cons j xs =>
      cases hj : field.decode j with
      | error fault => simp [hj] at h
      | ok y =>
        cases hothers : rest.byPosition record size (index + 1) xs with
        | error fault => simp [hj, hothers] at h
        | ok others =>
          simp only [hj, hothers, Except.ok.injEq] at h
          cases h
          exact (Fields.fits_cons field rest _ _).mpr
            ⟨hfield.fits hj, hrest.byPosition_fits hothers⟩

theorem fillSlots_fits {fields : Fields ts} (hfields : fields.Decodes)
    {members : List (String × Json)} {slots slots' : Slots ts} (hslots : fields.SlotsFit slots)
    (h : fillSlots fields.put members slots = .ok slots') : fields.SlotsFit slots' := by
  induction members generalizing slots with
  | nil =>
    cases h
    exact hslots
  | cons m members ih =>
    obtain ⟨name, j⟩ := m
    unfold fillSlots at h
    cases hput : fields.put name j slots with
    | error fault => simp [hput] at h
    | ok put =>
      simp only [hput] at h
      exact ih (hfields.put_fits hslots hput) h

end Fields.Decodes

/-! ## Every schema -/

theorem Schema.Decodes.record {name : String} {fields : Fields ts} (hfields : fields.Decodes)
    (hnames : fields.names.Nodup) : (Schema.record name fields).Decodes where
  ne_null _ h := nomatch h
  readable {row} hrow :=
    .obj (hnames.sublist (fields.names_encode row)) (hfields.readable hrow)
  decode {row} hrow j h := by
    obtain ⟨kept, rfl, hkept⟩ := Reordered.of_obj h
    obtain ⟨slots, hfills, hcomplete⟩ := hfields.decode hrow hkept
    simp only [Schema.decode, fillSlots_of_fills hfills, hcomplete]
  fits {j row} h := by
    unfold Schema.decode at h
    split at h
    · rename_i members
      cases hfill : fillSlots fields.put members fields.noSlots with
      | error fault => simp [hfill] at h
      | ok slots =>
        simp only [hfill] at h
        exact hfields.complete_fits (hfields.fillSlots_fits fields.noSlots_fit hfill) h
    · split at h
      · rename_i hread
        cases h
        exact hfields.byPosition_fits hread
      · cases h
      · cases h
    · cases h

mutual

/-- A lawful schema gives back what it writes, and gives nothing that it cannot write. -/
theorem Schema.decodes : {α : Type} → (schema : Schema α) → schema.Lawful → schema.Decodes
  | _, .text, _ => .text
  | _, .flag, _ => .flag
  | _, .count _, hlimit => .count hlimit
  | _, .list item, hitem => .list (item.decodes hitem)
  | _, .either _ left right, h => by
    obtain ⟨hleft, hright, hrefused⟩ := h
    exact .either (left.decodes hleft) (right.decodes hright) hrefused
  | _, .record _ fields, h => by
    obtain ⟨hnames, hfields⟩ := h
    exact .record (fields.decodes hfields hnames) hnames
  | _, .via item _ _, h => by
    obtain ⟨hitem, hpack, hunpack⟩ := h
    exact .via (item.decodes hitem) hpack hunpack

theorem Fields.decodes : {ts : List Type} → (fields : Fields ts) → fields.Lawful →
    fields.names.Nodup → fields.Decodes
  | _, .nil, _, _ => .nil
  | _, .required name item rest, h, hnames => by
    obtain ⟨hitem, hrest⟩ := h
    obtain ⟨hname, hnames⟩ := List.nodup_cons.mp hnames
    exact .cons (.required name (item.decodes hitem)) hname (rest.decodes hrest hnames)
  | _, .defaulted name _ item rest, h, hnames => by
    obtain ⟨hitem, hvalue, hrest⟩ := h
    obtain ⟨hname, hnames⟩ := List.nodup_cons.mp hnames
    exact .cons (.defaulted name hvalue (item.decodes hitem)) hname (rest.decodes hrest hnames)
  | _, .optional name item rest, h, hnames => by
    obtain ⟨hitem, hrest⟩ := h
    obtain ⟨hname, hnames⟩ := List.nodup_cons.mp hnames
    exact .cons (.optional name (item.decodes hitem)) hname (rest.decodes hrest hnames)

end

end ScopeCheck
